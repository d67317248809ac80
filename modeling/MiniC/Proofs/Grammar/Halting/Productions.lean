import MiniC.Proofs.Grammar.Halting.Nodes

/-!
# The productions halt

A production calls itself and others again behind a token that it has passed.  So
productions built over two records of productions that agree behind a token agree from
that token on (`Productions.Agree.layer`), and a record of enough layers does not depend
on what its layers are built over (`Productions.Agree.under`).

A production may be empty, and then only the loops around it have to pass tokens: a list
of parameters at its commas, a list of declarators at its semicolon.
-/

namespace MiniC
namespace Grammar

variable {tokens : TokenStream} {state : State} {low : Nat} {α β σ : Type}
  {again beside : Productions}

/-- Two records of productions halt alike from an index on. -/
structure Productions.Agree (tokens : TokenStream) (low : Nat)
    (again beside : Productions) :
    Prop where
  specifiers : ∀ allowed,
    Halts tokens low stays (again.specifiers allowed) (beside.specifiers allowed)
  declarator : ∀ base, Halts tokens low stays (again.declarator base)
    (beside.declarator base)
  suffix : ∀ ty, Halts tokens low stays (again.suffix ty) (beside.suffix ty)
  expr : Halts tokens low stays again.expr beside.expr
  assign : Halts tokens low stays again.assign beside.assign
  cast : Halts tokens low stays again.cast beside.cast
  unary : Halts tokens low stays again.unary beside.unary
  stmt : Halts tokens low stays again.stmt beside.stmt
  block : Halts tokens low stays again.block beside.block

namespace Productions.Agree

/-- Productions that agree from an index on agree from every later one. -/
theorem mono {later : Nat} (agree : again.Agree tokens low beside) (le : low ≤ later) :
    again.Agree tokens later beside where
  specifiers := fun allowed => (agree.specifiers allowed).mono le
  declarator := fun base => (agree.declarator base).mono le
  suffix := fun ty => (agree.suffix ty).mono le
  expr := agree.expr.mono le
  assign := agree.assign.mono le
  cast := agree.cast.mono le
  unary := agree.unary.mono le
  stmt := agree.stmt.mono le
  block := agree.block.mono le

/-- Productions that halt alike from an index on do so from the next. -/
theorem succ (agree : again.Agree tokens low beside) :
    again.Agree tokens (low + 1) beside :=
  agree.mono (Nat.le_succ low)

end Productions.Agree

/-- The rank of a list that a loop builds: its first entry may be empty. -/
def listRank (list : List α) : Nat := if list.isEmpty then 1 else 0

/-- The rank of the state of a loop that is told whether its round is the first. -/
def firstRank (current : Bool × σ) : Nat := current.1.toNat

/-- A list that has an entry has rank zero. -/
@[simp] theorem listRank_append (list : List α) (entry : α) :
    listRank (list ++ [entry]) = 0 := by
  simp [listRank]

/-! ## What stands at a known token -/

namespace HaltsAt

variable {gain : α -> Nat} {joint : β -> Nat}

/-- A value that gains nothing needs no token. -/
theorem pure {value : α} (inside : state.Inside tokens) (none : gain value = 0) :
    HaltsAt tokens state gain (pure value) (Pure.pure value) :=
  Halts.pure none state inside (Nat.le_refl _)

/-- A rejection halts at once. -/
theorem failHere {cause : Cause} (inside : state.Inside tokens) :
    HaltsAt tokens state gain (failHere cause) (Grammar.failHere cause) :=
  Halts.failHere state inside (Nat.le_refl _)

/-- What stands behind a rejection does not matter. -/
theorem rejects {cause : Cause} {rest behind : α -> Parser β}
    (inside : state.Inside tokens) :
    HaltsAt tokens state joint (Grammar.failHere cause >>= rest)
      (Grammar.failHere cause >>= behind) :=
  .of_error rfl rfl inside (by simp)

/-- A parser behind a token that is skipped, if it is not the last or the parser halts
there as well. -/
theorem opened {rest behind : Unit -> Parser β}
    (tail : ∀ value, Halts tokens low stays (rest value) (behind value))
    (inside : state.Inside tokens)
    (opens : low ≤ state.pos ∨ low ≤ state.pos + 1 ∧ state.pos < tokens.last) :
    HaltsAt tokens state stays (Grammar.advance >>= rest)
      (Grammar.advance >>= behind) := by
  rcases opens with reached | ⟨reached, further⟩
  · exact Halts.seq .advance tail state inside reached
  · exact (HaltsAt.advance inside further).bind fun value => (tail value).mono reached

/-- A storage class is one token. -/
theorem storageClass (inside : state.Inside tokens) (further : state.pos < tokens.last)
    (allowed : Bool) (storage : Storage) :
    HaltsAt tokens state moves (storageClass allowed storage)
      (Grammar.storageClass allowed storage) :=
  .ite (fun _ => .get_bind <| .ite (fun _ => .rejects inside) fun _ =>
    (HaltsAt.advance inside further).bind fun _ => .pure rfl) fun _ => .rejects inside

/-- A word of a basic type is one token. -/
theorem typeWord (inside : state.Inside tokens) (further : state.pos < tokens.last)
    (seen : Specifiers) :
    HaltsAt tokens state moves (typeWord seen) (Grammar.typeWord seen) := by
  refine .get_bind ?_
  split
  · exact .failHere inside
  · exact (HaltsAt.advance inside further).bind fun _ => .pure rfl

end HaltsAt

namespace Halts

variable {gain : α -> Nat} {joint : β -> Nat}

/-- A parser behind a comma, unless it is the first. -/
theorem separated {first : Bool} {rest behind : Unit -> Parser β}
    (fresh : first = true -> Halts tokens low joint (rest ()) (behind ()))
    (later : first = false ->
      Halts tokens (low + 1) (fun result => joint result - 1) (rest ()) (behind ())) :
    Halts tokens low joint (if first then rest () else Grammar.expect "," >>= rest)
      (if first then behind () else Grammar.expect "," >>= behind) := by
  cases first with
  | true => exact fresh rfl
  | false => exact .past .expect fun _ => later rfl

/-- A parser that is run at an earlier token, and then the cursor is put back. -/
theorem rewound {parser other : Parser α} (halts : Halts tokens low stays parser other)
    {index : Nat} (reached : low ≤ index) :
    Halts tokens low stays
      (do
        let stop ← Grammar.position
        seek index
        let value ← parser
        seek stop
        return value)
      (do
        let stop ← Grammar.position
        seek index
        let value ← other
        seek stop
        return value) := by
  intro state inside before
  have bounded := inside.cursor
  let start : State := { state with pos := min index state.tokens.last }
  have back : State.Inside tokens start := by
    refine ⟨inside.ended, inside.same, ?_⟩
    change min index state.tokens.last ≤ tokens.last
    rw [inside.same]
    exact Nat.min_le_right _ _
  have later : low ≤ start.pos := by
    change low ≤ min index state.tokens.last
    rw [inside.same]
    exact Nat.le_min.mpr ⟨reached, Nat.le_trans before bounded⟩
  have one := halts start back later
  have unfolded (parser : Parser α) : (do
        let stop ← Grammar.position
        seek index
        let value ← parser
        seek stop
        return value : Parser α) state = (do
        let value ← parser
        seek state.pos
        return value : Parser α) start := rfl
  cases run : parser start with
  | error error after =>
      obtain ⟨within, ends⟩ := one.failure error after run
      refine .of_error ?_ ((unfolded parser).trans (bind_fail run)) within ends
      rw [unfolded, unfolded, bind_fail run, bind_fail (one.agrees.trans run)]
  | ok value after =>
      obtain ⟨within, -⟩ := one.result value after run
      have stopped : min state.pos after.tokens.last = state.pos := by
        rw [within.same]
        exact Nat.min_eq_left bounded
      have finished : (seek state.pos >>= fun _ => Pure.pure value : Parser α) after =
          .ok value { after with pos := min state.pos after.tokens.last } := rfl
      refine .of_ok ?_ ((unfolded parser).trans ((bind_run run).trans finished)) ?_ ?_
      · rw [unfolded, unfolded, bind_run run, bind_run (one.agrees.trans run)]
      · exact ⟨within.ended, within.same, Nat.le_trans (Nat.le_of_eq stopped) bounded⟩
      · exact Nat.le_of_eq stopped.symm

/-! ## Specifiers and declarators -/

/-- Each star is a token that is passed over. -/
theorem pointers (base : TyId) : Steady tokens low (pointers base) :=
  .repeats fun _ => .accept (.seq (.pointerTo _) fun _ => .pure rfl) (.pure rfl)

/-- A constant passes over its name. -/
theorem enumConstant (ty : TyId) (next : Option Int) :
    Halts tokens low moves (enumConstant ty next) (Grammar.enumConstant ty next) := by
  refine .past .identifier fun named => ?_
  have declared (low : Nat) (value : Int) : Steady tokens low (do
      Grammar.modifyScopes (·.declareVariable named.1 (.enumConstant ty value))
      return Extent.add? value 1) :=
    .seq (.modifyScopes _) fun _ => .pure rfl
  refine .accept (.seq .number (declared _)) ?_
  split
  · rename_i value
    have given : Steady tokens (low + 1) (Pure.pure value : Parser Int) := .pure rfl
    exact .seq given (declared _)
  · exact .failAt_bind

/-- Each round of the list reads a constant, and only the first may stand without a
comma. -/
theorem enumConstants (ty : TyId) : Steady tokens low (enumConstants ty) := by
  refine .repeats fun _ => .accept (.pure rfl) (.ite ?_ ?_)
  · exact .past (.enumConstant ty _) fun _ => .pure rfl
  · exact .past .expect fun _ => .accept (.pure rfl) <|
      .seq (.enumConstant ty _) fun _ => .pure rfl

/-- The brace that opens the constants is in front of them. -/
theorem enumBody (tag : Option (String × Nat)) : Steady tokens low (enumBody tag) :=
  .seq .expect fun _ => .seq (.enterTy _) fun _ => .seq (.enumConstants _) fun _ =>
    .seq (.bindTag _ _) fun _ => .pure rfl

theorem enumeration : Steady tokens low enumeration := by
  refine .seq .identifier? fun tag => .read fun state => ?_
  split
  · exact .taggedEnum _ _
  · exact .enumBody _

/-- A parameter may be empty, so it calls the productions where it stands. -/
theorem parameter (here : again.Agree tokens low beside) :
    Halts tokens low stays (parameter again) (Grammar.parameter beside) :=
  .seq (here.specifiers false) fun _ => .seq (here.declarator _) fun _ =>
    .seq (.parameterTy _) fun _ => .pure rfl

/-- Behind the first parameter each one needs a comma. -/
theorem parameters (here : again.Agree tokens low beside) (result : TyId) :
    Halts tokens low stays (parameters again result)
      (Grammar.parameters beside result) := by
  refine .read fun state =>
    .ite ?_ (.follow (.iterate listRank (Nat.le_refl _) fun params => ?_)
    fun _ => .enterTy _)
  · exact .seq .advance fun _ => .seq .advance fun _ => .enterTy _
  · refine .accept (.pure rfl) (.separated (fun fresh => ?_) fun later => ?_)
    · exact .seq (.parameter here) fun _ => .pure (by simp [roundGain, listRank, fresh])
    · exact .seq (.parameter here.succ) fun _ => .pure (by simp [roundGain])

/-- The suffix behind an array stands behind its bracket. -/
theorem arraySuffix (here : again.Agree tokens low beside) (ty : TyId) :
    Halts tokens low stays (arraySuffix again ty) (Grammar.arraySuffix beside ty) :=
  .seq .position fun _ => .seq .number fun _ => .first_if .failAt fun _ =>
    .seq .expect fun _ =>
    .seq (here.suffix ty) fun _ => .seq (.lookupTy _) fun _ => .first_if .failAt fun _ =>
      .arrayOf _ _ _ _

/-- The bracket or parenthesis is passed over before another production is called. -/
theorem suffix (ahead : again.Agree tokens (low + 1) beside) (ty : TyId) :
    Halts tokens low stays (suffix again ty) (Grammar.suffix beside ty) :=
  .accept (.parameters ahead ty) (.accept (.arraySuffix ahead ty) (.pure rfl))

/-- A declarator in parentheses, whose first token is not the last or may be read as one
by the productions that are called again. -/
theorem nestedDeclarator_at (here : again.Agree tokens low beside) (ty : TyId)
    (inside : state.Inside tokens)
    (opens : low ≤ state.pos ∨ low ≤ state.pos + 1 ∧ state.pos < tokens.last) :
    HaltsAt tokens state stays (nestedDeclarator again ty)
      (nestedDeclarator beside ty) := by
  refine .opened (fun _ => ?_) inside opens
  intro state inside reached
  -- the tokens between the parentheses are read twice, and both times from where they
  -- begin
  refine .position_bind ?_
  have twice (outer : TyId) := (here.declarator outer).rewound reached
  refine Halts.seq (here.declarator .int) (fun _ => ?_) state inside reached
  exact .seq .expect fun _ => .seq (.suffix here.succ ty) twice

/-- The parenthesis is passed over before the declarator is read, the second time as
well. -/
theorem nestedDeclarator (here : again.Agree tokens low beside) (ty : TyId) :
    Halts tokens low stays (nestedDeclarator again ty)
      (Grammar.nestedDeclarator beside ty) :=
  fun _ inside reached => nestedDeclarator_at here ty inside (.inl reached)

/-- Stars and parentheses are passed over before another production is called. -/
theorem declarator (ahead : again.Agree tokens (low + 1) beside) (base : TyId) :
    Halts tokens low stays (declarator again base) (Grammar.declarator beside base) := by
  refine .seq .position fun _ => .seq (.pointers base) fun ty =>
    .get_bind fun state inside reached => .ite (fun opens => ?_) fun _ => ?_
  · have further := inside.lt_last_of_sees (Bool.and_eq_true_iff.mp opens).1
    exact (nestedDeclarator_at ahead ty inside
      (.inr ⟨Nat.succ_le_succ reached, further⟩)).bind
      fun _ => .pure rfl
  · refine Halts.seq .identifier? (fun _ => ?_) state inside reached
    exact .seq (.suffix ahead ty) fun _ => .pure rfl

/-- A list of declarators, if their use halts.  It ends behind its semicolon. -/
theorem declaratorList {start : σ} {extend other : σ -> Declarator -> Nat -> Parser σ}
    (ahead : again.Agree tokens (low + 1) beside)
    (each : ∀ result declared tok,
      Halts tokens low stays (extend result declared tok) (other result declared tok))
    (base : TyId) :
    Halts tokens low moves (declaratorList again base start extend)
      (Grammar.declaratorList beside base start other) := by
  refine .iterate firstRank (Nat.le_refl _) ?_
  rintro ⟨first, result⟩
  refine .accept (.pure rfl) (.separated (fun fresh => ?_) fun later => ?_)
  · exact .seq (.declarator ahead base) fun _ => .seq (.requireName _) fun _ =>
      .seq (each _ _ _) fun _ => .pure (by simp [roundGain, firstRank, fresh])
  · exact .seq (.declarator ahead.succ base) fun _ => .seq (.requireName _) fun _ =>
      .seq ((each _ _ _).mono (Nat.le_succ _)) fun _ =>
        .pure (by simp [roundGain, firstRank, later])

/-- Each round of the list ends behind a semicolon. -/
theorem fieldList (here : again.Agree tokens low beside) :
    Halts tokens low stays (fieldList again) (Grammar.fieldList beside) :=
  .repeats fun _ => .accept (.pure rfl) <| .seq (here.specifiers false) fun _ =>
    .past (.declaratorList here.succ (fun _ _ _ => .addField _ _ _) _) fun _ => .pure rfl

/-- The brace that opens the members is in front of them. -/
theorem aggregateBody (here : again.Agree tokens low beside) (form : Form)
    (tag : Option (String × Nat)) :
    Halts tokens low stays (aggregateBody again form tag)
      (Grammar.aggregateBody beside form tag) :=
  .seq .position fun _ => .seq .expect fun _ => .seq (.enterTy _) fun _ =>
    .seq (.bindTag _ _) fun _ => .seq (.fieldList here) fun _ =>
      .seq (.completeTy _ _ _) fun _ => .pure rfl

theorem aggregate (here : again.Agree tokens low beside) (form : Form) :
    Halts tokens low stays (aggregate again form) (Grammar.aggregate beside form) := by
  refine .seq .identifier? fun tag => .read fun state => ?_
  cases tag with
  | none => exact .aggregateBody here _ _
  | some named =>
      cases state.sees openBrace with
      | false => exact .taggedAggregate _ _ _
      | true => exact .aggregateBody here _ _

/-- A type that begins at a token passes over that token. -/
theorem namedTy_at (ahead : again.Agree tokens (state.pos + 1) beside)
    (inside : state.Inside tokens) (further : state.pos < tokens.last)
    (typedef : Option TyId) :
    HaltsAt tokens state moves (namedTy again typedef) (namedTy beside typedef) :=
  .accept inside (.aggregate ahead .struct) <| .accept inside (.aggregate ahead .union) <|
    .accept inside .enumeration <| (HaltsAt.advance inside further).bind
      fun _ => .pure rfl

/-- Each round of the specifiers passes over a word. -/
theorem specifiers (ahead : again.Agree tokens (low + 1) beside) (allowed : Bool) :
    Halts tokens low stays (specifiers again allowed)
      (Grammar.specifiers beside allowed) := by
  refine .repeats fun seen => .get_bind fun state inside reached =>
    .ite (fun _ => .pure inside rfl) fun starts => ?_
  have further := inside.lt_last_of_startsType (by simpa using starts)
  refine .ite (fun _ => ?_) fun _ => .ite
    (fun _ => .ite (fun _ => .pure inside rfl) fun _ => ?_)
    fun _ => ?_
  · exact (HaltsAt.storageClass inside further _ _).bind fun _ => .pure rfl
  · have behind : again.Agree tokens (state.pos + 1) beside :=
      ahead.mono (Nat.succ_le_succ reached)
    exact (namedTy_at behind inside further _).bind fun _ => .pure rfl
  · exact (HaltsAt.typeWord inside further _).bind fun _ => .pure rfl

/-- The name of a type is made of specifiers and a declarator. -/
theorem typeName (ahead : again.Agree tokens (low + 1) beside) :
    Halts tokens low stays (typeName again) (Grammar.typeName beside) :=
  .seq (.specifiers ahead false) fun _ => .seq (.declarator ahead _) fun _ => .pure rfl

/-! ## Expressions -/

/-- An argument is an assignment, which may read nothing before it calls the
productions. -/
theorem argument (here : again.Agree tokens low beside) (param : Option Param) :
    Halts tokens low stays (argument again param) (Grammar.argument beside param) := by
  refine .seq .position fun _ => .seq here.assign fun _ => .seq (.nodeTy _) fun _ =>
    .first_if .failAt fun _ => ?_
  cases param with
  | some param => exact .newCast _ _ _
  | none => exact .pure rfl

/-- Behind the first argument each one needs a comma. -/
theorem arguments (here : again.Agree tokens low beside) (params : List Param) :
    Halts tokens low stays (arguments again params)
      (Grammar.arguments beside params) := by
  refine .iterate listRank (Nat.le_refl _) fun args =>
    .accept (.pure rfl) (.separated (fun fresh => ?_) fun later => ?_)
  · exact .seq (.argument here _) fun _ => .pure (by simp [roundGain, listRank, fresh])
  · exact .seq (.argument here.succ _) fun _ => .pure (by simp [roundGain])

/-- The name and the parenthesis of a call are in front of its arguments. -/
theorem call (ahead : again.Agree tokens (low + 1) beside) :
    Halts tokens low stays (call again) (Grammar.call beside) := by
  refine .past .identifier fun _ => .seq .expect fun _ => .seq (.callee _ _) fun _ =>
    .seq (.lookupSymbol _) fun _ => .seq (.lookupTy _) fun ty => ?_
  cases ty.kind with
  | func result params =>
      exact .seq (.arguments ahead _) fun _ => .first_if .failAt fun _ => .newTyped _ _ _
  | _ => exact .failAt

theorem variableReference : Steady tokens low variableReference := by
  refine .seq .identifier fun _ => .read fun state => ?_
  split
  · exact .newNode _ _
  · exact .newTyped _ _ _
  · exact .failAt

/-- Behind a parenthesis and a brace stands a block. -/
theorem statementExpression_at (here : again.Agree tokens low beside)
    (inside : state.Inside tokens)
    (opens : low ≤ state.pos ∨ low ≤ state.pos + 1 ∧ state.pos < tokens.last) :
    HaltsAt tokens state stays (statementExpression again) (statementExpression beside) :=
  .position_bind <| .opened (fun _ => .seq .advance fun _ => .seq here.block fun _ =>
    .seq .expect fun _ => .seq (.takeBlock _ _) fun _ => .newNode _ _) inside opens

theorem statementExpression (here : again.Agree tokens low beside) :
    Halts tokens low stays (statementExpression again)
      (Grammar.statementExpression beside) :=
  fun _ inside reached => statementExpression_at here inside (.inl reached)

/-- The operand of `sizeof` stands behind the keyword. -/
theorem sizeofOperand (here : again.Agree tokens low beside) (tok : Nat) :
    Halts tokens low stays (sizeofOperand again tok) (Grammar.sizeofOperand beside tok) :=
  .read fun _ => .ite
    (.seq .advance fun _ => .seq (.typeName here.succ) fun _ => .seq .expect
      fun _ => .pure rfl)
    (.seq here.unary fun _ => .typeOf _)

theorem sizeof (here : again.Agree tokens low beside) (tok : Nat) :
    Halts tokens low stays (sizeof again tok) (Grammar.sizeof beside tok) :=
  .seq (.sizeofOperand here tok) fun _ => .seq (.lookupTy _) fun _ =>
    .first_if .failAt fun _ => .newTyped _ _ _

/-- A call passes over its name, and the other atoms are single tokens. -/
theorem atom (ahead : again.Agree tokens (low + 1) beside) :
    Halts tokens low stays (atom again) (Grammar.atom beside) := by
  refine .read fun state => ?_
  dsimp only
  cases state.current.kind with
  | identifier => exact .ite (.call ahead) .variableReference
  | str data =>
      exact .seq .advance fun _ => .seq (.newStringLiteral _ _) fun _ => .newNode _ _
  | num value => exact .seq .number fun _ => .newNode _ _
  | _ => exact .failHere

/-- An expression in parentheses stands behind the first of them. -/
theorem primary (ahead : again.Agree tokens (low + 1) beside) :
    Halts tokens low stays (primary again) (Grammar.primary beside) := by
  refine .get_bind fun state inside reached => .ite (fun opens => ?_) fun _ => ?_
  · have further := inside.lt_last_of_sees (Bool.and_eq_true_iff.mp opens).1
    exact statementExpression_at ahead inside (.inr ⟨Nat.succ_le_succ reached, further⟩)
  · refine Halts.accept ?_ (.accept (.sizeof ahead _) (.atom ahead)) state inside reached
    exact .seq ahead.expr fun _ => .seq .expect fun _ => .pure rfl

theorem memberAccess (base : NodeId) : Steady tokens low (memberAccess base) := by
  refine .seq (.typeOf base) fun _ => .seq .identifier fun _ =>
    .seq (.lookupTy _) fun ty => .first_unless .failAt fun _ => ?_
  split
  · exact .failAt
  · exact .newTyped _ _ _

/-- Each round passes over the bracket, dot or arrow of a trailer. -/
theorem trailer (ahead : again.Agree tokens (low + 1) beside) :
    Halts tokens low stays (trailer again) (Grammar.trailer beside) := by
  refine .seq (.primary ahead) fun _ => .repeats fun _ => .seq .position fun _ =>
    .accept ?_ <| .accept ?_ <| .accept ?_ (.pure rfl)
  · exact .seq ahead.expr fun _ => .seq .expect fun _ => .seq (.newAdd _ _ _) fun _ =>
      .seq (.newNode _ _) fun _ => .pure rfl
  · exact .seq (.memberAccess _) fun _ => .pure rfl
  · exact .seq (.newNode _ _) fun _ => .seq (.memberAccess _) fun _ => .pure rfl

/-- An operator is passed over before its operand is read. -/
theorem unary (ahead : again.Agree tokens (low + 1) beside) :
    Halts tokens low stays (unary again) (Grammar.unary beside) := by
  have operated (kind : NodeId -> NodeKind) (tok : Nat) :
      Halts tokens (low + 1) stays (do Grammar.newNode (kind (← again.cast)) tok)
        (do Grammar.newNode (kind (← beside.cast)) tok) :=
    .seq ahead.cast fun _ => .newNode _ _
  exact .seq .position fun tok => .accept ahead.cast <|
    .accept (operated (.unary .neg) tok) <| .accept (operated .addr tok) <|
    .accept (operated .deref tok) <| .accept (operated (.unary .not) tok) <|
    .accept (operated (.unary .bitNot) tok) (.trailer ahead)

/-- The parenthesis of a conversion is passed over before its operand is read. -/
theorem cast (ahead : again.Agree tokens (low + 1) beside) :
    Halts tokens low stays (cast again) (Grammar.cast beside) := by
  refine .get_bind fun state inside reached => .ite (fun opens => ?_) fun _ => ?_
  · have further := inside.lt_last_of_sees (Bool.and_eq_true_iff.mp opens).1
    refine .opened (fun _ => ?_) inside (.inr ⟨Nat.succ_le_succ reached, further⟩)
    exact .seq (.typeName ahead.succ) fun _ => .seq .expect fun _ =>
      .seq ahead.cast fun _ => .newCast _ _ _
  · exact unary ahead state inside reached

/-- A level of operators, if joining operands halts. -/
theorem leftChain {operators : List (String × Join)} {operand other : Parser NodeId}
    (joins : ∀ operator ∈ operators, ∀ (low : Nat) (lhs rhs : NodeId) (tok : Nat),
      Steady tokens low (operator.2 lhs rhs tok))
    (each : Halts tokens low stays operand other) :
    Halts tokens low stays (leftChain operators operand)
      (Grammar.leftChain operators other) := by
  refine .seq each fun _ => .repeats fun lhs => .get_bind fun state inside reached => ?_
  cases found : operators.find? fun operator => state.sees operator.1 with
  | none => exact .pure inside rfl
  | some operator =>
      have here := List.find?_some found
      have passed {parser : Parser PUnit} (run : parser state = .ok ⟨⟩ state.next) :
          HaltsAt tokens state moves parser parser :=
        .of_ok rfl run (inside.next (inside.lt_last_of_sees here)) (Nat.le_refl _)
      refine (passed rfl).bind fun _ => .seq (each.mono (Nat.le_succ_of_le reached))
        fun _ => ?_
      exact .seq (joins _ (List.mem_of_find?_eq_some found) _ _ _ _) fun _ => .pure rfl

/-- The operands of `*`, `/` and `%` have an operator between them. -/
theorem product (ahead : again.Agree tokens (low + 1) beside) :
    Halts tokens low stays (product again) (Grammar.product beside) :=
  .leftChain (by simp [Halts.newIntegerBinary]) (.cast ahead)

theorem sum (ahead : again.Agree tokens (low + 1) beside) :
    Halts tokens low stays (sum again) (Grammar.sum beside) :=
  .leftChain (by simp [Halts.newAdd, Halts.newSub]) (.product ahead)

theorem relational (ahead : again.Agree tokens (low + 1) beside) :
    Halts tokens low stays (relational again) (Grammar.relational beside) :=
  .leftChain (by simp [Halts.newBinary]) (.sum ahead)

theorem equality (ahead : again.Agree tokens (low + 1) beside) :
    Halts tokens low stays (equality again) (Grammar.equality beside) :=
  .leftChain (by simp [Halts.newBinary]) (.relational ahead)

theorem logAnd (ahead : again.Agree tokens (low + 1) beside) :
    Halts tokens low stays (logAnd again) (Grammar.logAnd beside) :=
  .leftChain (by simp [Halts.newBinary]) (.equality ahead)

theorem logOr (ahead : again.Agree tokens (low + 1) beside) :
    Halts tokens low stays (logOr again) (Grammar.logOr beside) :=
  .leftChain (by simp [Halts.newBinary]) (.logAnd ahead)

/-- The right side of an assignment stands behind the equals sign. -/
theorem assign (ahead : again.Agree tokens (low + 1) beside) :
    Halts tokens low stays (assign again) (Grammar.assign beside) :=
  .seq (.logOr ahead) fun _ => .seq .position fun _ =>
    .accept (.seq ahead.assign fun _ => .newAssign _ _ _) (.pure rfl)

/-- The next expression stands behind a comma. -/
theorem expr (ahead : again.Agree tokens (low + 1) beside) :
    Halts tokens low stays (expr again) (Grammar.expr beside) :=
  .seq (.assign ahead) fun _ => .seq .position fun _ =>
    .accept (.seq ahead.expr fun _ => .newNode _ _) (.pure rfl)

/-! ## Statements -/

/-- The value of a variable stands behind the equals sign. -/
theorem initialiser (ahead : again.Agree tokens (low + 1) beside) (symbol : SymbolId)
    (tok : Nat) :
    Halts tokens low stays (initialiser again symbol tok)
      (Grammar.initialiser beside symbol tok) :=
  .seq .position fun _ => .accept
    (.seq (.newNode _ _) fun _ => .seq (.assign ahead.succ) fun _ =>
      .seq (.newAssign _ _ _) fun _ => .seq (.newNode _ _) fun _ => .pure rfl)
    (.pure rfl)

/-- A variable is declared without a token, and its initialiser is read. -/
theorem declareLocal (ahead : again.Agree tokens (low + 1) beside) (body : List NodeId)
    (declared : Declarator) (tok : Nat) :
    Halts tokens low stays (declareLocal again body declared tok)
      (Grammar.declareLocal beside body declared tok) :=
  .seq (.checkVariableTy _ _) fun _ => .read fun _ => .seq (.newLocal _ _) fun _ =>
    .seq (.initialiser ahead _ _) fun _ => .pure rfl

/-- A declaration ends behind a semicolon. -/
theorem declaration (ahead : again.Agree tokens (low + 1) beside) (base : TyId) :
    Halts tokens low moves (declaration again base) (Grammar.declaration beside base) :=
  .seq .position fun _ => .past (.declaratorList ahead (.declareLocal ahead) base)
    fun _ => .newNode _ _

/-- A `typedef` ends behind a semicolon. -/
theorem typedefNames (ahead : again.Agree tokens (low + 1) beside) (base : TyId) :
    Halts tokens low moves (typedefNames again base) (Grammar.typedefNames beside base) :=
  .declaratorList ahead (fun _ _ _ => .read fun _ => .modifyScopes _) base

/-- A statement that is an expression ends behind a semicolon. -/
theorem exprStmt (ahead : again.Agree tokens (low + 1) beside) :
    Halts tokens low moves (exprStmt again) (Grammar.exprStmt beside) :=
  .seq .position fun _ => .accept (.newNode _ _) <| .seq (.expr ahead) fun _ =>
    .past .expect fun _ => .newNode _ _

/-- The value of a `return` stands behind the keyword. -/
theorem returnStmt (here : again.Agree tokens low beside) (tok : Nat) :
    Halts tokens low stays (returnStmt again tok) (Grammar.returnStmt beside tok) := by
  refine .accept (.newNode _ _) <| .seq here.expr fun _ => .seq .expect fun _ =>
    .read fun state => ?_
  cases state.function with
  | none => exact .newNode _ _
  | some function =>
      exact .seq (.lookupTy _) fun _ => .ite (.newNode _ _) <|
        .seq (.newCast _ _ _) fun _ => .newNode _ _

/-- A condition stands behind a parenthesis. -/
theorem condition (ahead : again.Agree tokens (low + 1) beside) (tok : Nat) :
    Halts tokens low stays (condition again tok) (Grammar.condition beside tok) :=
  .past .expect fun _ => .seq ahead.expr fun _ => .seq (.checkScalar _ _) fun _ =>
    .seq .expect fun _ => .pure rfl

/-- The branches of an `if` stand behind its condition. -/
theorem ifStmt (here : again.Agree tokens low beside) (tok : Nat) :
    Halts tokens low stays (ifStmt again tok) (Grammar.ifStmt beside tok) :=
  .seq (.condition here.succ tok) fun _ => .seq here.stmt fun _ => .accept
    (.seq here.succ.stmt fun _ => .newNode _ _) (.newNode _ _)

/-- A `for` statement begins with a declaration or an expression, each up to a
semicolon. -/
theorem forInit (ahead : again.Agree tokens (low + 1) beside) :
    Halts tokens low stays (forInit again) (Grammar.forInit beside) :=
  .read fun _ => .ite
    (.seq (.specifiers ahead false) fun _ => (declaration ahead _).loose)
    (exprStmt ahead).loose

theorem forCond (here : again.Agree tokens low beside) (tok : Nat) :
    Halts tokens low stays (forCond again tok) (Grammar.forCond beside tok) :=
  .accept (.pure rfl) <| .seq here.expr fun _ => .seq (.checkScalar _ _) fun _ =>
    .seq .expect fun _ => .pure rfl

theorem forStep (here : again.Agree tokens low beside) :
    Halts tokens low stays (forStep again) (Grammar.forStep beside) :=
  .accept (.pure rfl) <| .seq here.expr fun _ => .seq .expect fun _ => .pure rfl

/-- The body of a `for` stands behind its parentheses. -/
theorem forStmt (here : again.Agree tokens low beside) (tok : Nat) :
    Halts tokens low stays (forStmt again tok) (Grammar.forStmt beside tok) :=
  .seq .expect fun _ => .withScope <| .seq (.forInit here.succ) fun _ =>
    .seq (.forCond here tok) fun _ => .seq (.forStep here) fun _ =>
      .seq here.stmt fun _ => .newNode _ _

/-- The body of a `while` stands behind its condition. -/
theorem whileStmt (here : again.Agree tokens low beside) (tok : Nat) :
    Halts tokens low stays (whileStmt again tok) (Grammar.whileStmt beside tok) :=
  .seq (.condition here.succ tok) fun _ => .seq here.stmt fun _ => .newNode _ _

theorem gotoStmt (tok : Nat) : Steady tokens low (gotoStmt tok) :=
  .seq .identifier fun _ => .seq .expect fun _ => .seq (.modifyFunction _) fun _ =>
    .newNode _ _

/-- The statement behind a label stands behind the colon. -/
theorem labelStmt (ahead : again.Agree tokens (low + 1) beside) (tok : Nat) :
    Halts tokens low moves (labelStmt again tok) (Grammar.labelStmt beside tok) :=
  .past .identifier fun _ => .seq .expect fun _ => .read fun _ =>
    .first_if .failAt fun _ =>
    .seq (.modifyFunction _) fun _ => .seq ahead.stmt fun _ => .newNode _ _

/-- Every statement passes over a token. -/
theorem stmt (ahead : again.Agree tokens (low + 1) beside) :
    Halts tokens low moves (stmt again) (Grammar.stmt beside) :=
  .seq .position fun tok => .accept (.returnStmt ahead tok) <|
    .accept (.ifStmt ahead tok) <|
    .accept (.forStmt ahead tok) <| .accept (.whileStmt ahead tok) <|
    .accept (.gotoStmt tok) <| .read fun _ => .ite (.labelStmt ahead tok) <|
    .accept ahead.block (.exprStmt ahead)

/-- A declaration in a block ends behind a semicolon. -/
theorem blockDeclaration (ahead : again.Agree tokens (low + 1) beside) :
    Halts tokens low moves (blockDeclaration again) (Grammar.blockDeclaration beside) :=
  .seq .position fun _ => .seq (.specifiers ahead true) fun _ => .ite
    (.past (.typedefNames ahead _) fun _ => .pure rfl) <| .ite .failAt <|
      .past (.declaration ahead _) fun _ => .pure rfl

/-- Every item of a block passes over a token. -/
theorem blockItem (ahead : again.Agree tokens (low + 1) beside) :
    Halts tokens low moves (blockItem again) (Grammar.blockItem beside) :=
  .read fun _ => .ite (.blockDeclaration ahead) <| .past (.stmt ahead) fun _ => .pure rfl

/-- Each round of a block reads an item, up to the closing brace. -/
theorem block (ahead : again.Agree tokens (low + 1) beside) :
    Halts tokens low stays (block again) (Grammar.block beside) :=
  .seq .position fun _ => .withScope <| .follow
    (.repeats fun _ => .accept (.pure rfl) <| .read fun _ => .ite .failHere <|
      .past (.blockItem ahead) fun _ => .pure rfl)
    fun _ => .newNode _ _

/-! ## Source files -/

/-- The body of a function stands behind a brace. -/
theorem functionBody (ahead : again.Agree tokens (low + 1) beside) (params : List Param) :
    Halts tokens low moves (functionBody again params)
      (Grammar.functionBody beside params) :=
  .withScope <| .seq (.mapM .declareParameter _) fun _ => .past .expect fun _ =>
    .seq (.block ahead.succ) fun _ => .pure rfl

/-- A definition halts where its body does, for its tables are traversed in steps that are
bounded. -/
theorem functionDefinition (ahead : again.Agree tokens (low + 1) beside) (id : SymbolId)
    (result : TyId) (params : List Param) (tok : Nat) :
    Halts tokens low moves (functionDefinition again id result params tok)
      (Grammar.functionDefinition beside id result params tok) :=
  .seq (.modify (fun _ => rfl) fun _ => rfl) fun _ =>
    .past (.functionBody ahead params) fun _ =>
    .seq .finishFunction fun _ => .seq (.checkGotos _) fun _ =>
      .seq (.modify (fun _ => rfl) fun _ => rfl) fun _ => .layoutFrame _ _

/-- A declaration of a function ends behind a semicolon or a body. -/
theorem function (ahead : again.Agree tokens (low + 1) beside) (declared : Declarator)
    (storage : Storage) :
    Halts tokens low moves (function again declared storage)
      (Grammar.function beside declared storage) :=
  .seq (.requireName _) fun _ => .seq (.signature _ _) fun _ => .read fun _ =>
    .seq (.newFunction _ _ _) fun _ => .accept (.pure rfl)
      (.functionDefinition ahead _ _ _ _)

/-- Each round of the list reads a comma or the semicolon at its end. -/
theorem globalVariables (ahead : again.Agree tokens (low + 1) beside) (base : TyId)
    (first : Declarator) (storage : Storage) :
    Halts tokens low moves (globalVariables again base first storage)
      (Grammar.globalVariables beside base first storage) :=
  .repeats fun _ => .seq (.declareGlobal _ _) fun _ => .accept (.pure rfl) <|
    .past .expect fun _ => .seq (.declarator ahead.succ base) fun _ => .pure rfl

/-- Every declaration at file scope passes over a token. -/
theorem fileDeclaration (ahead : again.Agree tokens (low + 1) beside) :
    Halts tokens low moves (fileDeclaration again) (Grammar.fileDeclaration beside) :=
  .seq (.specifiers ahead true) fun _ => .ite (.typedefNames ahead _) <|
    .accept (.pure rfl) <| .seq (.declarator ahead _) fun _ => .seq (.lookupTy _) fun _ =>
      .ite (.function ahead _ _) (.globalVariables ahead _ _ _)

/-- Each round of a source file reads a declaration, up to the end. -/
theorem unit (ahead : again.Agree tokens (low + 1) beside) :
    Halts tokens low stays (unit again) (Grammar.unit beside) :=
  .repeats fun _ => .read fun _ => .ite (.pure rfl) <|
    .past (.fileDeclaration ahead) fun _ => .pure rfl

end Halts

/-! ## Layers -/

namespace Productions

/-- The productions that may call the given ones again. -/
def layer (again : Productions) : Productions where
  specifiers := Grammar.specifiers again
  declarator := Grammar.declarator again
  suffix := Grammar.suffix again
  expr := Grammar.expr again
  assign := Grammar.assign again
  cast := Grammar.cast again
  unary := Grammar.unary again
  stmt := Grammar.stmt again
  block := Grammar.block again

/-- The productions that may recur to the given depth and there call the given ones. -/
def under (innermost : Productions) : Nat -> Productions
  | 0 => innermost
  | depth + 1 => (innermost.under depth).layer

/-- The productions that recur to a depth are so many layers over some that always
fail. -/
theorem productions_eq_under (depth : Nat) :
    productions depth = exhausted.under depth := by
  induction depth with
  | zero => rfl
  | succ depth hypothesis => rw [productions, under, ← hypothesis, layer]

namespace Agree

/-- Productions that agree behind a token make productions that agree from it on. -/
theorem layer (ahead : again.Agree tokens (low + 1) beside) :
    again.layer.Agree tokens low beside.layer where
  specifiers := .specifiers ahead
  declarator := .declarator ahead
  suffix := .suffix ahead
  expr := .expr ahead
  assign := .assign ahead
  cast := .cast ahead
  unary := .unary ahead
  stmt := (Halts.stmt ahead).loose
  block := .block ahead

/-- Behind the last token there is nothing to agree on. -/
theorem beyond (behind : tokens.last < low) : again.Agree tokens low beside := by
  have never {α : Type} {parser other : Parser α} : Halts tokens low stays parser other :=
    fun _ inside reached =>
      absurd inside.cursor (Nat.not_le_of_lt (Nat.lt_of_lt_of_le behind reached))
  exact ⟨fun _ => never, fun _ => never, fun _ => never, never, never, never,
    never, never, never⟩

/-- With a layer for every token ahead, what lies under the layers does not matter. -/
theorem under (innermost other : Productions) {depth : Nat}
    (enough : tokens.last < low + depth) :
    (innermost.under depth).Agree tokens low (other.under depth) := by
  induction depth generalizing low with
  | zero => exact beyond enough
  | succ depth hypothesis => exact layer (hypothesis (by omega))

end Agree
end Productions
end Grammar
end MiniC
