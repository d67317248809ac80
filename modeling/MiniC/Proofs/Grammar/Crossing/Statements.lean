import MiniC.Proofs.Grammar.Crossing.Expressions

/-!
# Statements that cross

A statement crosses the place if an expression in it does.  The statements before the
place are on the same lines in both streams, and so is the place itself.
-/

namespace MiniC
namespace Grammar

variable {x : Crossing} {state middle after behind : State}
    {depth more tok : Nat} {ready : Prop}

namespace Crossing.Crosses

/-! ## Words that begin statements -/

section

variable {word : String} (here : state.sees word = true)

include here

/-- An occurrence in an `if` is one in the statement. -/
theorem stmt_if (same : word = "if")
    (crosses : x.Crosses (state.pos ≤ x.start) state.next
      (ifStmt (productions depth) state.pos) (ifStmt (productions more) state.pos)) :
    x.Crosses True state (Grammar.stmt (productions depth))
      (Grammar.stmt (productions more)) := by
  subst same
  exact .position <| .accept_no (State.sees_eq_false here (by decide)) (by decide) <|
    .accept_yes here (crosses.mono And.right)

/-- An occurrence in a `for` is one in the statement. -/
theorem stmt_for (same : word = "for")
    (crosses : x.Crosses (state.pos ≤ x.start) state.next
      (forStmt (productions depth) state.pos) (forStmt (productions more) state.pos)) :
    x.Crosses True state (Grammar.stmt (productions depth))
      (Grammar.stmt (productions more)) := by
  subst same
  exact .position <| .accept_no (State.sees_eq_false here (by decide)) (by decide) <|
    .accept_no (State.sees_eq_false here (by decide)) (by decide) <|
      .accept_yes here (crosses.mono And.right)

/-- An occurrence in a `while` is one in the statement. -/
theorem stmt_while (same : word = "while")
    (crosses : x.Crosses (state.pos ≤ x.start) state.next
      (whileStmt (productions depth) state.pos)
      (whileStmt (productions more) state.pos)) :
    x.Crosses True state (Grammar.stmt (productions depth))
      (Grammar.stmt (productions more)) := by
  subst same
  exact .position <| .accept_no (State.sees_eq_false here (by decide)) (by decide) <|
    .accept_no (State.sees_eq_false here (by decide)) (by decide) <|
      .accept_no (State.sees_eq_false here (by decide)) (by decide) <|
        .accept_yes here (crosses.mono And.right)

end

/-- The returned value is crossed inside the statement that returns it. -/
theorem returned (word : state.sees "return" = true) (open_ : state.next.sees ";" = false)
    (inner : x.Crosses True state.next (productions depth).expr (productions more).expr) :
    x.Crosses True state (Grammar.stmt (productions depth))
      (Grammar.stmt (productions more)) :=
  .position <| .accept_yes word <| .accept_no open_ (by decide) <|
    (inner.mono fun _ => trivial).lead .closing fun ⟨_, before⟩ value =>
      .returning (x.level before _) value

/-! ## Conditions and loops -/

/-- The condition is crossed between its parentheses. -/
theorem condition (opens : state.sees "(" = true)
    (inner : x.Crosses True state.next (productions depth).expr (productions more).expr) :
    x.Crosses ready state (Grammar.condition (productions depth) tok)
      (Grammar.condition (productions more) tok) :=
  .expect opens <| (inner.mono fun _ => trivial).lead .closing fun _ _ =>
    .bind (.checkScalar _ _ _) fun _ => .close (.expect ")") fun _ => .pure id trivial

/-- A condition before the place. -/
theorem behind_condition {α : Type} [Carried α]
    {rest onward : NodeId -> Parser α} {cond : NodeId}
    (head : Grammar.condition (productions depth) tok state = .ok cond middle)
    (crosses : x.Crosses (ready ∧ x.Settles cond) middle (rest cond)
      (onward (carry x.behind.names cond))) :
    x.Crosses ready state (Grammar.condition (productions depth) tok >>= rest)
      (Grammar.condition (productions more) tok >>= onward) :=
  .behind_inside (fun names fixes => .condition (before_twin names fixes depth more) _ _)
    head trivial crosses

/-- What stands behind the condition of an `if` is repeated. -/
theorem ifCondition {cond : NodeId} (before : tok ≤ x.start) :
    Twins x.behind False x.behind.low .passing
      (do
        let onTrue ← (productions depth).stmt
        if ← accept "else" then
          let onFalse ← (productions depth).stmt
          newNode (.branch cond onTrue (some onFalse)) tok
        else
          newNode (.branch cond onTrue none) tok)
      (do
        let onTrue ← (productions more).stmt
        if ← accept "else" then
          let onFalse ← (productions more).stmt
          newNode (.branch (carry x.behind.names cond) onTrue (some onFalse)) tok
        else
          newNode (.branch (carry x.behind.names cond) onTrue none) tok) := by
  have inner low := (x.behind_twin depth more).stmt x.braced low
  exact .lead (inner _) fun _ => .accept (fun _ => by decide)
    (.lead (inner _) fun _ => .of_blind (.newNode (.inr (x.level before _))))
    (.of_blind (.newNode (.inr (x.level before _))))

/-- A condition is crossed inside its `if` or its `while`. -/
theorem inCondition (word : state.sees "if" = true ∨ state.sees "while" = true)
    (opens : state.next.sees "(" = true)
    (inner : x.Crosses True state.next.next (productions depth).expr
      (productions more).expr) :
    x.Crosses True state (Grammar.stmt (productions depth))
      (Grammar.stmt (productions more)) := by
  rcases word with word | word
  · exact .stmt_if word rfl <| (condition opens inner).lead .passing fun before _ =>
      ifCondition before
  · exact .stmt_while word rfl <| (condition opens inner).lead .passing fun before _ =>
      .lead ((x.behind_twin depth more).stmt x.braced _) fun _ =>
        .of_blind (.newNode (.inr (x.level before _)))

/-- The first statement under a condition is crossed behind it. -/
theorem branch {cond : NodeId} (word : state.sees "if" = true ∨ state.sees "while" = true)
    (head : Grammar.condition (productions depth) state.pos state.next = .ok cond middle)
    (inner : x.Crosses True middle (productions depth).stmt (productions more).stmt) :
    x.Crosses True state (Grammar.stmt (productions depth))
      (Grammar.stmt (productions more)) := by
  rcases word with word | word
  · exact .stmt_if word rfl <| .behind_condition head <|
      (inner.mono fun _ => trivial).lead
      Mode.passing.pushed fun ⟨before, _⟩ _ => .accept (fun _ => by decide)
        (.lead ((x.behind_twin depth more).stmt x.braced _) fun _ =>
          .of_blind (.newNode (.inr (x.level before _))))
        (.of_blind (.newNode (.inr (x.level before _))))
  · exact .stmt_while word rfl <| .behind_condition head <|
      (inner.mono fun _ => trivial).lead
      .blind fun ⟨before, _⟩ _ => .newNode (.inr (x.level before _))

/-- The statement behind `else` is crossed behind the first one. -/
theorem otherwise {cond onTrue : NodeId} (word : state.sees "if" = true)
    (head : Grammar.condition (productions depth) state.pos state.next = .ok cond middle)
    (first : (productions depth).stmt middle = .ok onTrue after)
    (also : after.sees "else" = true)
    (inner : x.Crosses True after.next (productions depth).stmt (productions more).stmt) :
    x.Crosses True state (Grammar.stmt (productions depth))
      (Grammar.stmt (productions more)) :=
  .stmt_if word rfl <| .behind_condition head <|
    .behind (fun names fixes => (before_twin names fixes depth more).stmt id _) first
      (fun within => .inl (inner.before (kind_ne_eof_of_isSymbol also) within)) <|
      .accept_yes also <| (inner.mono fun _ => trivial).lead .blind
        fun ⟨⟨before, _⟩, _⟩ _ => .newNode (.inr (x.level before _))

/-! ## Declarations of variables -/

/-- An initialiser whose value crosses the place. -/
theorem initialiser {symbol : SymbolId} {other : Nat} {lhs : NodeId}
    (equals : state.sees "=" = true)
    (head : newNode (.var symbol) tok state.next = .ok lhs middle)
    (inner : x.Crosses True middle (Grammar.assign (productions depth))
      (Grammar.assign (productions more))) :
    x.Crosses ready state (Grammar.initialiser (productions depth) symbol tok)
      (Grammar.initialiser (productions more) symbol other) :=
  .position <| .accept_yes equals <|
    .blind (fun _ => newNode (.var symbol) other) (fun _ _ => .newNode (.inl rfl))
      (fun _ _ _ => rfl) head <| (inner.mono fun _ => trivial).lead .blind
        fun ⟨⟨_, before⟩, _⟩ _ =>
        .bind (.newAssign _ _ _ _) fun _ =>
          .bind (.newNode (.inr (x.level before _))) fun _ => .pure id trivial

/-- A local variable whose initialiser crosses the place. -/
theorem declareLocal {body : List NodeId} {declared : Declarator} {symbol : SymbolId}
    {lhs : NodeId} {after last : State}
    (identifier : (x.behind.tokens.get tok).isIdentifier = true)
    (settled : ready -> x.Settles declared)
    (checks : checkVariableTy declared.ty tok state = .ok () middle)
    (enters : newLocal (middle.token tok).text declared.ty middle = .ok symbol after)
    (equals : after.sees "=" = true)
    (head : newNode (.var symbol) tok after.next = .ok lhs last)
    (inner : x.Crosses True last (Grammar.assign (productions depth))
      (Grammar.assign (productions more))) :
    x.Crosses ready state (Grammar.declareLocal (productions depth) body declared tok)
      (Grammar.declareLocal (productions more) (carry x.behind.names body)
        (carry x.behind.names declared) (carry x.behind.names tok)) := by
  have same (holds : ready) names (fixes : x.Fixes names) :
      carry names declared.ty = carry x.behind.names declared.ty :=
    congrArg Declarator.ty (settled holds names fixes)
  have declares : x.Crosses ready middle
      (do
        let symbol ← newLocal (middle.token tok).text declared.ty
        return body ++ (← Grammar.initialiser (productions depth) symbol tok))
      (do
        let symbol ← newLocal (middle.token tok).text (carry x.behind.names declared.ty)
        return carry x.behind.names body ++
          (← Grammar.initialiser (productions more) symbol (carry x.behind.names tok))) :=
    .blind (fun names => newLocal _ (carry names declared.ty))
      (fun _ _ => .newLocal id _ _)
      (fun holds names fixes => by rw [same holds names fixes])
      enters <| (initialiser equals head inner).lead .blind fun _ _ =>
        .pure_of_eq id trivial List.map_append.symm
  refine .blind (fun names => checkVariableTy (carry names declared.ty)
    (carry x.behind.names tok))
    (fun _ _ => .checkVariableTy _ _ _)
    (fun holds names fixes => by rw [same holds names fixes])
    checks <| .swap (declares.mono And.left) rfl fun _ _ there tied => ?_
  have text : (there.token (carry x.behind.names tok)).text = _ :=
    tied.linked.text identifier
  rw [get_run, text]
  rfl

/-- A declaration of local variables of which an initialiser crosses the place. -/
theorem declaration {base : TyId} {last : State} (settled : ready -> x.Settles base)
    (declares : Initialises (productions depth) base state last)
    (inner : x.Crosses True last (Grammar.assign (productions depth))
      (Grammar.assign (productions more))) :
    x.Crosses ready state (Grammar.declaration (productions depth) base)
        (Grammar.declaration (productions more) (carry x.behind.names base)) ∧
      (state.Within x.behind.tokens -> state.pos < x.start) := by
  obtain ⟨first, body, middle, behind, lhs, rounds, open_, separated, head⟩ := declares
  obtain ⟨declared, declaredAt, declares, rest⟩ := bind_ok head
  obtain ⟨tok, namedAt, requires, rest⟩ := bind_ok rest
  obtain ⟨_, checkedAt, checks, rest⟩ := bind_ok rest
  obtain ⟨_, _, reads, rest⟩ := bind_ok rest
  cases reads
  obtain ⟨symbol, enteredAt, enters, rest⟩ := bind_ok rest
  obtain ⟨_, _, opening, rest⟩ := bind_ok rest
  have equals := sees_of_expect opening
  cases (expect_run equals).symm.trans opening
  have one names (fixes : x.Fixes names) current : Twins (x.before names fixes) False 0 _
      (declaratorRound (productions depth) base
        (Grammar.declareLocal (productions depth)) current)
      (declaratorRound (productions more) (carry names base)
        (Grammar.declareLocal (productions more)) (carry names current)) :=
    .declaratorRound (before_twin names fixes depth more) (fun _ _ _ _ identifier =>
      .declareLocal (before_twin names fixes depth more) id _ _ identifier) base current
  suffices reads : state.Within x.behind.tokens ->
      x.Crosses ready state (Grammar.declaration (productions depth) base)
        (Grammar.declaration (productions more) (carry x.behind.names base)) ∧
      state.pos < x.start from
    ⟨.of_within fun within => (reads within).1, fun within => (reads within).2⟩
  intro within
  have roundsAdded := added_of_rounds _ one rounds within
  have separatedAdded : Added x.behind.tokens middle behind := by
    cases first with
    | true => cases separated; exact .refl roundsAdded.within
    | false =>
        exact (added_fixed (.expect ",")
          roundsAdded.within separated).1
  obtain ⟨declaredAdded, named⟩ := added_before
    (Twins.declarator (before_twin _ x.fixed depth more) base)
      separatedAdded.within declares
  obtain ⟨namedAdded, identifier⟩ :=
    added_fixed (.requireName named) declaredAdded.within requires
  have checkedAdded := (added_fixed (.checkVariableTy _ _ tok)
    namedAdded.within checks).1
  have enteredAdded := (added_fixed (.newLocal id _ _)
    checkedAdded.within enters).1
  have near : declaredAt.pos < x.start := by
    have equalsWithin := Window.within_next (w := x.behind) enteredAdded.within
      (kind_ne_eof_of_isSymbol equals)
    have nodeAdded :=
      (added_fixed (@Twins.newNode _ _ _ _ tok _ (.inl rfl)) equalsWithin rest).1
    have last := (inner.ahead nodeAdded.within).pos
    have further : enteredAt.pos + 1 ≤ _ := nodeAdded.forward
    have := namedAdded.forward
    have := checkedAdded.forward
    have := enteredAdded.forward
    omega
  have middleBefore := Nat.lt_of_le_of_lt
    (Nat.le_trans separatedAdded.forward declaredAdded.forward) near
  have declared : x.Crosses (ready ∧ x.Settles body) behind
      (do
        let declared ← declarator (productions depth) base
        let tok ← declared.requireName
        return .again (false, ← Grammar.declareLocal (productions depth) body
          declared tok) :
          Parser (Round (Bool × List NodeId) (List NodeId)))
      (do
        let declared ← declarator (productions more) (carry x.behind.names base)
        let tok ← declared.requireName
        return .again (false, ← Grammar.declareLocal (productions more)
          (carry x.behind.names body) declared tok)) := by
    have declaring names (fixes : x.Fixes names) : Twins (x.before names fixes) False 0
        (.giving .peeking x.behind.Names) (declarator (productions depth) base)
        (declarator (productions more) (carry names base)) :=
      .declarator (before_twin names fixes depth more) base
    have requiring names (fixes : x.Fixes names) :
        Twins (x.before names fixes) False 0 .blind
        declared.requireName (carry names declared).requireName :=
      (Twins.requireName (w := x.before names fixes) named).weaken
        ⟨fun _ => id, fun _ => id, fun _ _ => trivial⟩
    refine .behind_at (fun names => declarator (productions more) (carry names base))
      declaring (fun holds names fixes => by rw [settled holds.1 names fixes])
      declares (fun _ => .inl near) <|
      .blind (fun names => (carry names declared).requireName) requiring
        (fun holds names fixes => by rw [holds.2 names fixes]) requires <|
        (declareLocal identifier (fun holds => holds.1.2) checks enters equals
          rest inner).lead .blind fun _ _ => .pure id trivial
  have round : x.Crosses (ready ∧ x.Settles (first, body)) middle
      (declaratorRound (productions depth) base (Grammar.declareLocal (productions depth))
        (first, body))
      (declaratorRound (productions more) (carry x.behind.names base)
        (Grammar.declareLocal (productions more))
          (carry x.behind.names (first, body))) := by
    have weaker (holds : ready ∧ x.Settles (first, body)) : ready ∧ x.Settles body :=
      ⟨holds.1, fun names fixes => congrArg Prod.snd (holds.2 names fixes)⟩
    refine .accept_no open_ (by decide) ?_
    cases first with
    | true =>
        cases separated
        exact declared.mono weaker
    | false =>
        have comma := sees_of_expect separated
        cases (expect_run comma).symm.trans separated
        exact .expect comma (declared.mono weaker)
  refine ⟨?_, Nat.lt_of_le_of_lt roundsAdded.forward middleBefore⟩
  have others current : Twins x.behind False x.behind.low _
      (declaratorRound (productions depth) base
        (Grammar.declareLocal (productions depth)) current)
      (declaratorRound (productions more) (carry x.behind.names base)
        (Grammar.declareLocal (productions more)) (carry x.behind.names current)) :=
    .declaratorRound (x.behind_twin depth more) (fun _ _ _ _ identifier =>
      .declareLocal (x.behind_twin depth more) x.braced _ _ identifier) base current
  have loop := Crosses.iterate .closing
    (fun names => declaratorRound (productions more) (carry names base)
      (Grammar.declareLocal (productions more))) one others rounds
    (fun (holds : ready ∧ state.pos ≤ x.start) names fixes => by
      rw [settled holds.1 names fixes])
    (fun _ _ _ => rfl)
    (.inr fun _ => .inl middleBefore) (round.mono fun holds => ⟨holds.1.1, holds.2⟩)
  exact .position <| loop.lead .blind
    fun ⟨_, before⟩ _ => .newNode (.inr (x.level before _))

/-! ## Expression statements and labels -/

theorem value (open_ : state.sees ";" = false)
    (inner : x.Crosses True state (Grammar.expr (productions depth))
      (Grammar.expr (productions more))) :
    x.Crosses ready state (Grammar.exprStmt (productions depth))
      (Grammar.exprStmt (productions more)) :=
  .position <| .accept_no open_ (by decide) <| (inner.mono fun _ => trivial).lead .closing
    fun ⟨_, before⟩ _ => .close (.expect ";") fun _ => .newNode (.inr (x.level before _))

/-- A statement without a word in front is an expression. -/
theorem unworded (other : ∀ word ∈ statementWords, state.sees word = false)
    (unlabelled : state.startsLabel = false)
    (inner : x.Crosses True state (Grammar.exprStmt (productions depth))
      (Grammar.exprStmt (productions more))) :
    x.Crosses True state (Grammar.stmt (productions depth))
      (Grammar.stmt (productions more)) :=
  .position <| .accept_no (other _ (by decide)) (by decide) <|
    .accept_no (other _ (by decide)) (by decide) <|
      .accept_no (other _ (by decide)) (by decide) <|
        .accept_no (other _ (by decide)) (by decide) <|
          .accept_no (other _ (by decide)) (by decide) <| .get_bind
            (.accept_no (other _ (by decide)) (by decide) (inner.mono fun _ => trivial))
            (if_neg (by simp [unlabelled])) fun _ ahead _ tied =>
              if_neg (by simp [tied.startsLabel_other ahead unlabelled])

/-- A block is crossed as a statement. -/
theorem braced (brace : state.sees openBrace = true)
    (inner : x.Crosses True state.next (productions depth).block
      (productions more).block) :
    x.Crosses True state (Grammar.stmt (productions depth))
      (Grammar.stmt (productions more)) := by
  have nameless : state.startsLabel = false := by
    unfold State.startsLabel
    rw [show state.current.isIdentifier = false from Token.isIdentifier_eq_false brace,
      Bool.false_and]
  have other {symbol : String} (differs : openBrace ≠ symbol) :
      state.sees symbol = false :=
    State.sees_eq_false brace differs
  exact .position <| .accept_no (other (by decide)) (by decide) <|
    .accept_no (other (by decide)) (by decide) <|
      .accept_no (other (by decide)) (by decide) <|
        .accept_no (other (by decide)) (by decide) <|
          .accept_no (other (by decide)) (by decide) <| .get_bind
            (.accept_yes brace (inner.mono fun _ => trivial))
            (if_neg (by simp [nameless])) fun _ ahead _ tied =>
              if_neg (by simp [tied.startsLabel_other ahead nameless])

/-- What stands in front of a labelled statement, before the place. -/
theorem labelHead_twin {w : Window} {calm : Prop} {low also : Nat} (plain : ¬ w.plain)
    (label : String) :
    Twins w calm low .closing (labelHead tok label) (labelHead also label) := by
  refine .close (.expect ":") fun _ => .get_bind
    fun state there inside within reached => ?_
  have defined (function : Option FunctionContext) : Twins w calm (low + 1) .blind
      (do
        if function.any fun function => function.labels.contains label then
          Grammar.failAt tok (.naming (.duplicateLabel label))
        Grammar.modifyFunction fun function =>
          { function with labels := function.labels ++ [label] })
      (do
        if (carry w.names function).any fun function =>
          function.labels.contains label then
          Grammar.failAt also (.naming (.duplicateLabel label))
        Grammar.modifyFunction fun function =>
          { function with labels := function.labels ++ [label] }) :=
    .first_if (by cases function <;> exact Iff.rfl) (.failAt _ _ _ _) fun _ =>
      .modifyFunction plain (fun _ => rfl) fun _ => rfl
  refine (defined state.function inside state there within reached).swap
    fun linked _ => ?_
  rw [← linked.function]
  rfl

/-- A labelled statement is its label and a statement. -/
theorem labelled_split (again : Productions) (tok : Nat) (label : String) :
    Grammar.labelled again tok label = (do
      labelHead tok label
      let body ← again.stmt
      newNode (.label label body) tok) := by
  unfold Grammar.labelled labelHead
  simp only [bind_assoc]
  congr! 5 with _ state
  split <;> simp only [bind_assoc]

/-- A label and its colon stand before the place. -/
theorem labelled_near {beside : Parser NodeId} (label : state.startsLabel = true)
    (head : labelHead state.pos state.current.text state.next = .ok () middle)
    (inner : x.Crosses ready middle (productions depth).stmt beside)
    (within : state.Within x.behind.tokens) : state.pos + 1 < x.start := by
  have further := kind_ne_eof_of_isIdentifier (Bool.and_eq_true_iff.mp label).1
  have entered := Window.within_next (w := x.behind) within further
  have twin : Twins (x.before _ x.fixed) False 0 .closing
      (labelHead state.pos state.current.text) (labelHead state.pos state.current.text) :=
    labelHead_twin id _
  have passed : state.next.pos < middle.pos :=
    (twin (Nat.le_refl 0) _ state entered (Nat.zero_le _)).own.passes
      () middle head trivial
  exact Nat.lt_of_lt_of_le passed
    (inner.ahead (added_before twin entered head).1.within).pos

theorem labelled (label : state.startsLabel = true)
    (head : labelHead state.pos state.current.text state.next = .ok () middle)
    (inner : x.Crosses True middle (productions depth).stmt (productions more).stmt) :
    x.Crosses True state (Grammar.stmt (productions depth))
      (Grammar.stmt (productions more)) := by
  have further := kind_ne_eof_of_isIdentifier (Bool.and_eq_true_iff.mp label).1
  have named : x.Crosses (state.pos ≤ x.start) state.next
      (Grammar.labelled (productions depth) state.pos state.current.text)
      (Grammar.labelled (productions more) state.pos state.current.text) := by
    rw [labelled_split, labelled_split]
    exact .behind_inside (fun _ _ => labelHead_twin id _) head trivial <|
      (inner.mono fun _ => trivial).lead .blind
        fun ⟨before, _⟩ _ => .newNode (.inr (x.level before _))
  have statement : x.Crosses (state.pos ≤ x.start) state
      (Grammar.stmt (productions depth))
      (Grammar.stmt (productions more)) := by
    refine named.next further (fun _ => stmt_run_label _ label)
      fun _ ahead before there tied => ?_
    have near := labelled_near label head inner ahead.within
    have labelled :=
      (Window.Shown.startsLabel tied.linked (Tied.shown (x := x) near)).trans label
    rw [← Window.Shown.text tied.linked (Tied.shown (x := x) before), ← tied.pos]
    exact stmt_run_label _ labelled
  exact .of_within fun within => statement.mono fun _ => (statement.ahead within).pos

/-! ## Loops with clauses -/

section

variable {tok : Nat}

/-- The clauses of a `for` statement behind the first. -/
theorem clauses_twin (x : Crossing) {low : Nat} (level : x.behind.Level low tok tok)
    (init : NodeId) :
    Twins x.behind False low .passing
      (do
        let cond ← Grammar.forCond (productions depth) tok
        let step ← Grammar.forStep (productions depth)
        let body ← (productions depth).stmt
        newNode (.loop (some init) cond step body) tok)
      (do
        let cond ← Grammar.forCond (productions more) tok
        let step ← Grammar.forStep (productions more)
        let body ← (productions more).stmt
        newNode (.loop (some (carry x.behind.names init)) cond step body) tok) :=
  .close (.forCond (x.behind_twin depth more) _ _) fun _ =>
    .close (.forStep (x.behind_twin depth more)) fun _ =>
      .lead ((x.behind_twin depth more).stmt x.braced _) fun _ =>
        .of_blind (.newNode (.inr (level.mono (by omega))))

end

/-- A `for` statement whose first clause crosses the place. -/
theorem forFirst (word : state.sees "for" = true) (opens : state.next.sees "(" = true)
    (first : x.Crosses True state.next.next.entered (Grammar.forInit (productions depth))
      (Grammar.forInit (productions more))) :
    x.Crosses True state (Grammar.stmt (productions depth))
      (Grammar.stmt (productions more)) :=
  .stmt_for word rfl <| .expect opens <| .withScope <|
    (first.mono fun _ => trivial).lead .passing
    fun before init => clauses_twin x (x.level before _) init

theorem forInit
    (untyped : state.startsType state.pos = false)
    (inner : x.Crosses True state (Grammar.exprStmt (productions depth))
      (Grammar.exprStmt (productions more))) :
    x.Crosses True state (Grammar.forInit (productions depth))
      (Grammar.forInit (productions more)) :=
  .get_bind inner (if_neg (by simp [untyped])) fun _ ahead there tied => if_neg <| by
    have other : there.startsType there.pos = false :=
      @Tied.startsType_other _ _ _ tied ahead 0 (Nat.zero_le _) untyped
    simp [other]

theorem forVariable {base : TyId} {storage : Storage}
    (typed : state.startsType state.pos = true)
    (specified : specifiers (productions depth) false state = .ok (base, storage) middle)
    (declares : Initialises (productions depth) base middle after)
    (inner : x.Crosses True after (Grammar.assign (productions depth))
      (Grammar.assign (productions more))) :
    x.Crosses True state (Grammar.forInit (productions depth))
      (Grammar.forInit (productions more)) := by
  obtain ⟨declared, near⟩ := @declaration _ _ _ more (x.Settles (base, storage)) _ _
    (fun holds names fixes => congrArg Prod.fst (holds names fixes)) declares inner
  have specifies names (fixes : x.Fixes names) : Twins (x.before names fixes)
      False 0 .peeking
      (specifiers (productions depth) false) (specifiers (productions more) false) :=
    .specifiers (before_twin names fixes depth more) false
  refine .get_bind (.behind specifies specified (fun within => .inl (near within))
    (declared.mono And.right)) (if_pos typed) fun _ ahead there tied => if_pos ?_
  have added := (added_before (specifies _ x.fixed) ahead.within specified).1
  have shown := Tied.shown (x := x) (Nat.lt_of_le_of_lt added.forward (near added.within))
  exact (@Window.Shown.startsType _ _ _ 0 tied.linked shown).trans typed

/-- A `for` statement whose first clause is before the place. -/
theorem behind_forInit {α : Type} [Carried α]
    {rest onward : NodeId -> Parser α} {init : NodeId}
    (head : Grammar.forInit (productions depth) state = .ok init middle)
    (crosses : x.Crosses (ready ∧ x.Settles init) middle (rest init)
      (onward (carry x.behind.names init))) :
    x.Crosses ready state (Grammar.forInit (productions depth) >>= rest)
      (Grammar.forInit (productions more) >>= onward) :=
  .behind_inside (fun names fixes => .forInit (before_twin names fixes depth more) id)
    head trivial crosses

/-- A condition of a `for` statement before the place. -/
theorem behind_forCond {α : Type} [Carried α] {rest onward : Option NodeId -> Parser α}
    {cond : Option NodeId}
    (head : Grammar.forCond (productions depth) tok state = .ok cond middle)
    (crosses : x.Crosses (ready ∧ x.Settles cond) middle (rest cond)
      (onward (carry x.behind.names cond))) :
    x.Crosses ready state (Grammar.forCond (productions depth) tok >>= rest)
      (Grammar.forCond (productions more) tok >>= onward) :=
  .behind_inside (fun names fixes => .forCond (before_twin names fixes depth more) _ _)
    head trivial crosses

theorem forCond {init : NodeId} (word : state.sees "for" = true)
    (opens : state.next.sees "(" = true)
    (first : Grammar.forInit (productions depth) state.next.next.entered =
      .ok init middle)
    (open_ : middle.sees ";" = false)
    (inner : x.Crosses True middle (productions depth).expr (productions more).expr) :
    x.Crosses True state (Grammar.stmt (productions depth))
      (Grammar.stmt (productions more)) := by
  refine .stmt_for word rfl <| .expect opens <| .withScope <| .behind_forInit first ?_
  have cond : x.Crosses (state.pos ≤ x.start ∧ x.Settles init) middle
      (Grammar.forCond (productions depth) state.pos)
      (Grammar.forCond (productions more) state.pos) :=
    .accept_no open_ (by decide) <| (inner.mono fun _ => trivial).lead .closing fun _ _ =>
      .bind (.checkScalar _ _ _) fun _ => .close (.expect ";") fun _ => .pure id trivial
  exact cond.lead .passing fun ⟨before, _⟩ _ =>
    .close (.forStep (x.behind_twin depth more)) fun _ =>
    .lead ((x.behind_twin depth more).stmt x.braced _) fun _ =>
      .of_blind (.newNode (.inr (x.level before _)))

theorem forStep {init : NodeId} {cond : Option NodeId} (word : state.sees "for" = true)
    (opens : state.next.sees "(" = true)
    (first : Grammar.forInit (productions depth) state.next.next.entered =
      .ok init middle)
    (second : Grammar.forCond (productions depth) state.pos middle = .ok cond after)
    (open_ : after.sees ")" = false)
    (inner : x.Crosses True after (productions depth).expr (productions more).expr) :
    x.Crosses True state (Grammar.stmt (productions depth))
      (Grammar.stmt (productions more)) := by
  refine .stmt_for word rfl <| .expect opens <| .withScope <| .behind_forInit first <|
    .behind_forCond second ?_
  have step : x.Crosses ((state.pos ≤ x.start ∧ x.Settles init) ∧ x.Settles cond) after
      (Grammar.forStep (productions depth)) (Grammar.forStep (productions more)) :=
    .accept_no open_ (by decide) <| (inner.mono fun _ => trivial).lead .closing fun _ _ =>
      .close (.expect ")") fun _ => .pure id trivial
  exact step.lead .passing fun ⟨⟨before, _⟩, _⟩ _ =>
    .lead ((x.behind_twin depth more).stmt x.braced _) fun _ =>
      .of_blind (.newNode (.inr (x.level before _)))

/-- The body of a loop is crossed behind its three parts. -/
theorem forBody {init : NodeId} {cond step : Option NodeId}
    (word : state.sees "for" = true) (opens : state.next.sees "(" = true)
    (first : Grammar.forInit (productions depth) state.next.next.entered =
      .ok init middle)
    (second : Grammar.forCond (productions depth) state.pos middle = .ok cond after)
    (third : Grammar.forStep (productions depth) after = .ok step behind)
    (inner : x.Crosses True behind (productions depth).stmt (productions more).stmt) :
    x.Crosses True state (Grammar.stmt (productions depth))
      (Grammar.stmt (productions more)) :=
  .stmt_for word rfl <| .expect opens <| .withScope <| .behind_forInit first <|
    .behind_forCond second <| .behind_inside
      (fun names fixes => .forStep (before_twin names fixes depth more)) third trivial <|
      (inner.mono fun _ => trivial).lead .blind
        fun ⟨⟨⟨before, _⟩, _⟩, _⟩ _ => .newNode (.inr (x.level before _))

/-! ## Blocks -/

/-- A block of which an item crosses the place. -/
theorem items {body : List NodeId}
    (rounds : Rounds (blockRound (productions depth)) [] state.entered body middle)
    (open_ : middle.sees closeBrace = false) (further : middle.current.isEof = false)
    (item : x.Crosses True middle (Grammar.blockItem (productions depth))
      (Grammar.blockItem (productions more))) :
    x.Crosses True state (Grammar.block (productions depth))
      (Grammar.block (productions more)) := by
  refine .position <| .withScope ?_
  have round : x.Crosses True middle (blockRound (productions depth) body)
      (blockRound (productions more) (carry x.behind.names body)) :=
    .accept_no open_ (by decide) <| .get_bind (item.lead .blind fun _ _ =>
        .pure_of_eq id trivial (congrArg Round.again List.map_append.symm))
      (if_neg (by simp [further])) fun _ ahead _ tied =>
        if_neg (by simp [tied.isEof_other ahead further])
  have before names (fixes : x.Fixes names) current : Twins (x.before names fixes) True 0
      (.eager (fun _ => True) .closing) (blockRound (productions depth) current)
      (blockRound (productions more) (carry names current)) :=
    .blockRound (before_twin names fixes depth more) id
      (fun low => stmt_twin (w := x.before names fixes) id depth more low) current
  have loop : x.Crosses (True ∧ state.pos ≤ x.start) state.entered
      (Grammar.iterate [] (blockRound (productions depth)))
      (Grammar.iterate [] (blockRound (productions more))) :=
    .iterate .closing (fun _ => blockRound (productions more)) before
      (fun current => (Twins.blockRound (x.behind_twin depth more) x.braced
        ((x.behind_twin depth more).stmt x.braced) current).weaken
          Mode.round_weaker_eager)
      rounds (fun _ _ _ => rfl) (fun _ _ _ => rfl) (.inr fun _ => .inr trivial)
      (round.mono fun _ => trivial)
  exact loop.lead .blind fun ⟨_, before⟩ _ =>
    .newNode (.inr (x.level (Nat.le_trans (Nat.sub_le _ _) before) _))

/-- A statement is crossed as an item of its block. -/
theorem item (untyped : state.startsType state.pos = false)
    (inner : x.Crosses True state (Grammar.stmt (productions depth))
      (Grammar.stmt (productions more))) :
    x.Crosses True state (Grammar.blockItem (productions depth))
      (Grammar.blockItem (productions more)) := by
  have single : x.Crosses True state (do return [← Grammar.stmt (productions depth)])
      (do return [← Grammar.stmt (productions more)]) :=
    inner.lead .blind fun _ _ => .pure id trivial
  refine .get_bind single (if_neg (by simp [untyped])) fun _ ahead there tied => if_neg ?_
  have other : there.startsType there.pos = false :=
    @Tied.startsType_other _ _ _ tied ahead 0 (Nat.zero_le _) untyped
  simp [other]

theorem labelledItem (label : state.startsLabel = true)
    (head : labelHead state.pos state.current.text state.next = .ok () middle)
    (inner : x.Crosses True middle (productions depth).stmt (productions more).stmt) :
    x.Crosses True state (Grammar.blockItem (productions depth))
      (Grammar.blockItem (productions more)) := by
  have single : x.Crosses True state (do return [← Grammar.stmt (productions depth)])
      (do return [← Grammar.stmt (productions more)]) :=
    (labelled label head inner).lead .blind fun _ _ => .pure id trivial
  refine .get_bind single (if_neg (by simp [label])) fun _ ahead there tied => if_neg ?_
  have near := labelled_near label head inner ahead.within
  have also :=
    (Window.Shown.startsLabel tied.linked (Tied.shown (x := x) near)).trans label
  simp [also]

theorem declared {base : TyId} {storage : Storage}
    (typed : (state.startsType state.pos && !state.startsLabel) = true)
    (specified : specifiers (productions depth) true state = .ok (base, storage) middle)
    (automatic : storage = ⟨false, false⟩)
    (declares : Initialises (productions depth) base middle after)
    (inner : x.Crosses True after (Grammar.assign (productions depth))
      (Grammar.assign (productions more))) :
    x.Crosses True state (Grammar.blockItem (productions depth))
      (Grammar.blockItem (productions more)) := by
  obtain ⟨typed, unlabelled⟩ := Bool.and_eq_true_iff.mp typed
  have unlabelled : state.startsLabel = false := by simpa using unlabelled
  obtain ⟨declares, near⟩ := @declaration _ _ _ more (x.Settles (base, storage)) _ _
    (fun holds names fixes => congrArg Prod.fst (holds names fixes)) declares inner
  have specifies names (fixes : x.Fixes names) : Twins (x.before names fixes)
      False 0 .peeking
      (specifiers (productions depth) true) (specifiers (productions more) true) :=
    .specifiers (before_twin names fixes depth more) true
  subst automatic
  have declared : x.Crosses True state (Grammar.blockDeclaration (productions depth))
      (Grammar.blockDeclaration (productions more)) :=
    .position <| .behind specifies specified (fun within => .inl (near within)) <|
      (declares.mono And.right).lead .blind fun _ _ => .pure id trivial
  refine .get_bind declared (if_pos (by simp [typed, unlabelled]))
    fun _ ahead there tied => if_pos ?_
  have added := (added_before (specifies _ x.fixed) ahead.within specified).1
  have shown := Tied.shown (x := x) (Nat.lt_of_le_of_lt added.forward (near added.within))
  have same : there.startsType there.pos = state.startsType state.pos :=
    @Window.Shown.startsType _ _ _ 0 tied.linked shown
  simp [same, typed, tied.startsLabel_other ahead unlabelled]

end Crossing.Crosses

end Grammar
end MiniC
