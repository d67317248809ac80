import MiniC.Proofs.Grammar.Twins.Types
import MiniC.Proofs.Precedence.Levels

/-!
# Twins of expressions and statements

An expression is followed up to the parenthesis that closes a calm window: where it looks
at the token behind it, it finds nothing to go on with, and a parenthesis does not let it
go on either.  A type in an expression stands in parentheses of its own.

The statements of a window that is not plain are on the same lines at both places.
-/

namespace MiniC
namespace Grammar

variable {w : Window} {calm : Prop} {state there : State} {low : Nat} {α β σ : Type}

/-- Productions that are twins in a calm window are twins where nothing is asked behind it. -/
theorem Productions.Twin.strict {again beside : Productions}
    (twin : again.Twin w calm beside) :
    again.Twin w False beside where
  own := twin.own
  specifiers := twin.specifiers
  declarator := twin.declarator
  suffix := twin.suffix
  expr := fun low => (twin.expr low).strict
  assign := fun low => (twin.assign low).strict
  cast := fun low => (twin.cast low).strict
  unary := fun low => (twin.unary low).strict
  stmt := twin.stmt
  block := twin.block

/-- A call behind the name that it calls. -/
def calling (again : Productions) (named : String × Nat) : Parser NodeId := do
  expect "("
  let function ← callee named.1 named.2
  match (← lookupTy (← query (·.lookupSymbol function)).ty).kind with
  | .func result params =>
      let args ← arguments again params
      if args.length > maxArguments then
        failAt named.2 (.grammar .tooManyArguments)
      newTyped (.call function args) result named.2
  | _ => failAt named.2 (.typing .notFunction)

/-- A call reads the name of the function and goes on behind it. -/
theorem call_run (again : Productions) (here : state.current.isIdentifier = true) :
    call again state = calling again (state.current.text, state.pos) state.next := by
  unfold call
  rw [bind_run (identifier_run here)]
  rfl

/-- What an atom is, by the kind of its first token. -/
def atomOf (again : Productions) (state : State) : TokenKind -> Parser NodeId
  | .identifier =>
      if state.seesAt (state.pos + 1) "(" then call again else variableReference
  | .str data => do
      advance
      newNode (.var (← newStringLiteral data state.pos)) state.pos
  | .num _ => do newNode (.num (← number)) state.pos
  | _ => failHere (.grammar .expectedExpression)

/-- What an atom is depends on the kind of its first token. -/
theorem atom_eq (again : Productions) :
    atom again = (do let state ← get; atomOf again state state.current.kind) := rfl

/-- The function that a name is bound to, if it is one. -/
def calleeOf (tok : Nat) : Option Binding -> Parser SymbolId
  | some (.object symbol) => return symbol
  | some _ => failAt tok (.typing .notFunction)
  | none => failAt tok (.naming .implicitFunction)

theorem callee_eq (name : String) (tok : Nat) :
    callee name tok = (do calleeOf tok ((← get).scopes.lookupVariable? name)) := rfl

/-- The node for what a name is bound to. -/
def referenceOf (tok : Nat) : Option Binding -> Parser NodeId
  | some (.object symbol) => newNode (.var symbol) tok
  | some (.enumConstant ty value) => newTyped (.num value) ty tok
  | _ => failAt tok (.naming .undefinedVariable)

/-- Inside a stretch the brace of a statement expression is read at once. -/
theorem statementExpression_run (again : Productions)
    (further : state.pos < state.tokens.last) :
    statementExpression again state = (do
      advance
      newNode (.stmtExpr (← bracedBlock again >>= fun block => takeBlock block state.pos))
        state.pos
      : Parser NodeId) state.next := by
  rw [statementExpression_eq, position_run, bind_run (advance_run further)]

/-- One round of the loop over subscripts and member accesses. -/
def trailerRound (again : Productions) (node : NodeId) :
    Parser (Round NodeId NodeId) := do
  let tok ← position
  if ← accept "[" then
    let index ← again.expr
    expect "]"
    let sum ← newAdd node index tok
    return .again (← newNode (.deref sum) tok)
  else if ← accept "." then
    return .again (← memberAccess node)
  else if ← accept "->" then
    return .again (← memberAccess (← newNode (.deref node) tok))
  else
    return .done node

namespace Window

/-- Whether an operator joins its operands at the other place as here. -/
def Joins (w : Window) (calm : Prop) (join : Join) : Prop :=
  ∀ low lhs rhs tok also, Twins w calm low .blind (join lhs rhs tok)
    (join (carry w.names lhs) (carry w.names rhs) also)

theorem joins_newBinary (op : BinaryOp) : w.Joins calm (newBinary op) :=
  fun _ _ _ _ _ => .newBinary op _ _ _ _

theorem joins_newIntegerBinary (op : BinaryOp) : w.Joins calm (newIntegerBinary op) :=
  fun _ _ _ _ _ => .newIntegerBinary op _ _ _ _

theorem joins_newAdd : w.Joins calm newAdd := fun _ _ _ _ _ => .newAdd _ _ _ _

theorem joins_newSub : w.Joins calm newSub := fun _ _ _ _ _ => .newSub _ _ _ _

end Window

/-- A member is found by its name, which a renaming leaves alone. -/
theorem findMember?_carry (names : Renaming) (members : List Member) (name : String) :
    findMember? (carry names members) name =
      (findMember? members name).map fun found => (found.1, carry names found.2) := by
  have zipped : (carry names members).zipIdx =
      members.zipIdx.map fun entry => (carry names entry.1, entry.2) :=
    List.zipIdx_map
  unfold findMember?
  rw [zipped, List.find?_map, Option.map_map, Option.map_map]
  rfl

/-- The mode of the rounds of a loop that pass a token in any case. -/
def Mode.eager {σ α : Type} (holds : σ -> Prop) (mode : Mode α) : Mode (Round σ α) :=
  { mode.round holds with passes := fun _ => True }

instance {σ α : Type} (holds : σ -> Prop) (mode : Mode α) : (mode.eager holds).Settled :=
  ⟨fun _ _ => trivial⟩

/-- What is shown of an eager round is enough in a loop. -/
theorem Mode.round_weaker_eager {σ α : Type} {holds : σ -> Prop} {mode : Mode α} :
    (mode.round holds).Weaker (mode.eager holds) :=
  ⟨fun value => by cases value <;> exact fun _ => trivial, fun _ => id, fun _ => id⟩

/-- One round of the loop over the arguments of a call. -/
def argumentRound (again : Productions) (params : List Param) (args : List NodeId) :
    Parser (Round (List NodeId) (List NodeId)) := do
  if ← accept ")" then
    return .done args
  else
    unless args.isEmpty do
      expect ","
    return .again (args ++ [← argument again params[args.length]?])

/-- The statements of a block are taken out of it at the other place as here. -/
theorem takeBlock_linked (braced : ¬ w.plain) (linked : w.Linked state there)
    (block : NodeId) (tok also : Nat) :
    w.Ends (takeBlock block tok state) (takeBlock (carry w.names block) also there) := by
  cases found : state.program.node? block with
  | none =>
      have failed : takeBlock block tok state = _ :=
        bind_fail (query_eq_error (lookupNode_of_none found))
      refine ⟨fun body last run => (by cases failed.symm.trans run),
        fun whole _ _ _ _ => ?_⟩
      have none := linked.tables.exact.missing whole block found
      exact ⟨_, _, bind_fail (query_eq_error (lookupNode_of_none none))⟩
  | some node =>
      have known := lookupNode_of_some found
      obtain ⟨other, alsoFound, stands⟩ := linked.tables.renames.found block node found
      have alsoKnown := lookupNode_of_some alsoFound
      by_cases taken : ∃ body, node.kind = .block body
      · obtain ⟨statements, kind⟩ := taken
        refine ⟨fun body last run => ?_, fun _ _ _ run => ?_⟩
        · cases (takeBlock_run known kind).symm.trans run
          have alsoKind : other.kind = .block (carry w.names statements) := by
            rw [stands.kind, kind]
            rfl
          exact .inr ⟨_, takeBlock_run alsoKnown alsoKind,
            linked.enter ⟨linked.within.same, linked.within.cursor, linked.within.types⟩
              (linked.tables.emptied braced found (by rw [kind]; rfl))⟩
        · cases (takeBlock_run known kind).symm.trans run
      · have different (body : List NodeId) : node.kind ≠ .block body :=
          fun same => taken ⟨body, same⟩
        refine ⟨fun body last run =>
          (by cases (takeBlock_rejects known different).symm.trans run),
          fun _ _ _ _ _ => ⟨_, _, takeBlock_rejects alsoKnown fun body same => ?_⟩⟩
        rw [stands.kind] at same
        cases kind : node.kind with
        | block statements => exact different statements kind
        | _ => rw [kind] at same; cases same

namespace Twins

section

variable {again beside : Productions} (twin : again.Twin w calm beside)

include twin

/-! ## Expressions -/

/-- An argument is converted to the same parameter on both sides. -/
theorem argument (param : Option Param) :
    Twins w calm low .passing (Grammar.argument again param)
      (Grammar.argument beside (carry w.names param)) := by
  refine .position_any fun tok also _ => .lead (twin.assign _) fun value => ?_
  refine .bind (.nodeTy _) fun _ => .first_if (by simp) (.failAt _ _ _ _) fun _ => ?_
  cases param with
  | some param => exact .of_blind (.newCast _ _ _ _)
  | none => exact .pure id trivial

/-- One round of the loop over the arguments of a call. -/
theorem argumentRound (params : List Param) (args : List NodeId) :
    Twins w calm low (.eager (fun _ => True) .closing)
      (Grammar.argumentRound again params args)
      (Grammar.argumentRound beside (carry w.names params) (carry w.names args)) := by
  have param : (carry w.names params)[(carry w.names args).length]? =
      carry w.names params[args.length]? := by
    rw [show (carry w.names args).length = args.length from List.length_map _]
    exact List.getElem?_map
  unfold Grammar.argumentRound
  rw [param]
  exact .accept_passing (fun _ => trivial) (.pure id trivial) <|
    .separated (by simp [carry]) (.expect ",") fun _ => .lead (.argument twin _) fun _ =>
      .pure_of_eq id trivial (by simp [Round.carried, carry])

/-- The parenthesis behind the arguments closes them on both sides. -/
theorem arguments (params : List Param) :
    Twins w calm low .closing (Grammar.arguments again params)
      (Grammar.arguments beside (carry w.names params)) :=
  .iterate (fun _ => True) trivial fun args _ =>
    (argumentRound twin params args).weaken Mode.round_weaker_eager

omit twin in
/-- A function is found by its name and not by the token that names it. -/
theorem callee (name : String) (tok also : Nat) :
    Twins w calm low .blind (Grammar.callee name tok) (Grammar.callee name also) := by
  rw [callee_eq, callee_eq]
  refine .get_bind fun state there inside within reached => ?_
  have bound (binding : Option Binding) : Twins w calm low .blind
      (calleeOf tok binding) (calleeOf also (carry w.names binding)) := by
    rcases binding with _ | ⟨_ | _ | _⟩
    · exact .failAt _ _ _ _
    · exact .pure id trivial
    · exact .failAt _ _ _ _
    · exact .failAt _ _ _ _
  exact (bound _ inside state there within reached).swap fun linked _ => by
    rw [linked.scopes, Scopes.lookupVariable?_carry]
    rfl

/-- A call behind the name that it calls. -/
theorem calling (named : String × Nat) :
    Twins w calm low .closing (Grammar.calling again named)
      (Grammar.calling beside (carry w.names named)) := by
  refine .close (.expect "(") fun _ => ?_
  refine .bind (.callee _ _ _) fun _ => .bind (.lookupSymbol _) fun _ =>
    .bind (.lookupTy _) fun ty => ?_
  obtain ⟨kind, _, _, _⟩ := ty
  cases kind with
  | func result params =>
      exact .close (.arguments twin params) fun args =>
        .first_if (by simp [carry]) (.failAt _ _ _ _) fun _ => .newTyped (.inl rfl)
  | _ => exact .failAt _ _ _ _

omit twin in
theorem variableReference :
    Twins w calm low .closing Grammar.variableReference Grammar.variableReference := by
  refine .close_gives .identifier fun named _ =>
    .get_bind fun state there inside within reached => ?_
  have bound (binding : Option Binding) : Twins w calm (low + 1) .blind
      (referenceOf named.2 binding)
      (referenceOf (carry w.names named.2) (carry w.names binding)) := by
    rcases binding with _ | ⟨_ | _ | _⟩
    · exact .failAt _ _ _ _
    · exact .newNode (.inl rfl)
    · exact .failAt _ _ _ _
    · exact .newTyped (.inl rfl)
  exact (bound _ inside state there within reached).swap fun linked _ => by
    rw [linked.scopes, Scopes.lookupVariable?_carry]
    rfl

/-- The type that `sizeof` is applied to.  The keyword stands in front of the cursor. -/
theorem sizeofOperand [w.Closes calm] {tok also : Nat} (within : state.Within w.tokens)
    (inside : w.low ≤ state.pos) (behind : state.pos = tok + 1)
    (alsoBehind : w.Linked state there -> there.pos = also + 1) :
    TwinsAt w calm state there .passing (Grammar.sizeofOperand again tok)
      (Grammar.sizeofOperand beside also) := by
  refine .get_bind within ?_
  have next : tok + 2 = state.pos + 1 := by omega
  have alsoNext (linked : w.Linked state there) : also + 2 = there.pos + 1 := by
    have := alsoBehind linked
    omega
  rw [next]
  by_cases typed : (state.sees "(" && state.startsType (state.pos + 1)) = true
  · have ⟨opens, starts⟩ := Bool.and_eq_true_iff.mp typed
    have more := kind_ne_eof_of_isSymbol opens
    have further := lt_last w.sound.ended within.same more
    have named : Twins w calm (state.pos + 1) .passing
        (do
          let ty ← Grammar.typeName again
          Grammar.expect ")"
          return ty)
        (do
          let ty ← Grammar.typeName beside
          Grammar.expect ")"
          return ty) :=
      .enclosed (fun _ => trivial) (.typeName twin) fun _ => .close (.expect ")") fun _ =>
        .pure id trivial
    rw [if_pos typed]
    refine .behind_two within more (Token.string?_of_isSymbol opens)
      (bind_run (advance_run (within.same ▸ further))) (fun linked shown => ?_)
      (named (Nat.le_succ_of_le inside) _ _ (Window.within_next within more)
        (Nat.le_refl _))
    have here := shown.mono (Nat.le_succ _)
    rw [alsoNext linked, here.sees linked, shown.startsType linked, if_pos typed]
    exact bind_run (advance_run (linked.tokens.symm ▸ here.lt_last linked more))
  · have untyped : Twins w calm state.pos .passing
        (do Grammar.typeOf (← again.unary)) (do Grammar.typeOf (← beside.unary)) :=
      .lead (twin.unary _) fun _ => .of_blind (.typeOf _)
    rw [if_neg typed]
    refine .ahead (fun linked shown faces => ?_)
      (untyped inside _ _ within (Nat.le_refl _))
    have other : ¬ (there.sees "(" && there.startsType (there.pos + 1)) = true := by
      intro both
      have ⟨opens, starts⟩ := Bool.and_eq_true_iff.mp both
      rw [shown.sees linked] at opens
      have none : state.startsType (state.pos + 1) = false := by
        rw [opens, Bool.true_and] at typed
        simpa using typed
      rw [faces.startsType linked none] at starts
      cases starts
    rw [alsoNext linked, if_neg other]

/-- The operand of `sizeof` is a type on both sides or an expression on both sides. -/
theorem sizeof [w.Closes calm] {tok also : Nat} (within : state.Within w.tokens)
    (inside : w.low ≤ state.pos) (behind : state.pos = tok + 1)
    (alsoBehind : w.Linked state there -> there.pos = also + 1) :
    TwinsAt w calm state there .passing (Grammar.sizeof again tok)
      (Grammar.sizeof beside also) :=
  .lead (sizeofOperand twin within inside behind alsoBehind)
    (fun _ _ _ => .bind (.lookupTy _) fun _ =>
    .first_if (by simp) (.failAt _ _ _ _) fun _ =>
      .of_blind (.newTyped_of_eq (.inl rfl) (w.names.literalTy _))) inside

/-- A literal, or what a name stands for. -/
theorem atom [w.Closes calm] :
    Twins w calm low .passing (Grammar.atom again) (Grammar.atom beside) := by
  rw [atom_eq, atom_eq]
  refine .get_bind fun state there inside within reached => ?_
  have inside_ := Nat.le_trans inside reached
  suffices same : TwinsAt w calm state there .passing
      (atomOf again state state.current.kind)
      (atomOf beside there state.current.kind) from
    same.shown (fun _ => trivial) fun linked shown => by rw [shown.kind linked]
  cases kind : state.current.kind with
  | identifier =>
      have named : state.current.isIdentifier = true := by
        unfold Token.isIdentifier
        rw [kind]
        rfl
      change TwinsAt w calm state there .passing
        (if state.seesAt (state.pos + 1) "(" then Grammar.call again
          else Grammar.variableReference)
        (if there.seesAt (there.pos + 1) "(" then Grammar.call beside
          else Grammar.variableReference)
      by_cases calls : state.seesAt (state.pos + 1) "(" = true
      · have more := kind_ne_eof_of_isIdentifier named
        rw [if_pos calls]
        refine .behind_two within more (Token.string?_of_isIdentifier named)
          (call_run again named) (fun linked shown => ?_)
          (Twins.of_closing (calling twin (state.current.text, state.pos))
            (Nat.le_succ_of_le inside_) _ _ (Window.within_next within more)
              (Nat.le_refl _))
        have here := shown.mono (Nat.le_succ _)
        rw [shown.seesAt linked, if_pos calls,
          call_run beside ((here.isIdentifier linked).trans named), here.text linked,
          ← here.place linked]
        rfl
      · rw [if_neg calls]
        refine .ahead (fun linked shown faces => ?_)
          (Twins.of_closing .variableReference inside state there within reached)
        rw [faces.seesAt linked (by simpa using calls) fun _ => by decide]
        rfl
  | str data =>
      have literal : TwinsAt w calm state there .passing
          ((Grammar.advance >>= fun _ => newStringLiteral data state.pos) >>=
            fun symbol => Grammar.newNode (.var symbol) state.pos)
          ((Grammar.advance >>= fun _ => newStringLiteral data there.pos) >>=
            fun symbol => Grammar.newNode (.var symbol) there.pos) :=
        .close (.stringLiteral _ _ within kind)
          (fun _ _ _ => .of_blind (.newNode (.inl rfl))) inside_
      rw [bind_assoc, bind_assoc] at literal
      exact literal
  | num value =>
      have read : Twins w calm low .passing
          (do Grammar.newNode (.num (← Grammar.number)) state.pos)
          (do Grammar.newNode (.num (← Grammar.number)) there.pos) :=
        .close .number fun _ => .of_blind (.newNode (.inl rfl))
      exact read inside state there within reached
  | punctuator => exact .of_errors within rfl rfl
  | keyword => exact .of_errors within rfl rfl
  | eof => exact .of_errors within rfl rfl

/-- The statements are taken out of the block that has been read. -/
theorem takenBlock (braced : ¬ w.plain) (within : state.Within w.tokens)
    (inside : w.low < state.pos) (tok also : Nat) :
    TwinsAt w calm state there .closing
      (bracedBlock again >>= fun block => takeBlock block tok)
      (bracedBlock beside >>= fun block => takeBlock block also) := by
  have read : Twins w calm state.pos .closing (bracedBlock again) (bracedBlock beside) :=
    .close ((twin.block braced _ inside).calmed fun _ => trivial) fun _ =>
      .close (.expect ")") fun _ => .pure id trivial
  have own := Follows.takenBlock twin.own within tok
  refine .settle own (read (Nat.le_of_lt inside) _ _ within (Nat.le_refl _)) ?_ ?_
  · intro block after body last _ run
    cases found : after.program.node? block with
    | none => cases (bind_fail (query_eq_error (lookupNode_of_none found))).symm.trans run
    | some node =>
        have known := lookupNode_of_some found
        by_cases taken : ∃ body, node.kind = .block body
        · obtain ⟨statements, kind⟩ := taken
          cases (takeBlock_run known kind).symm.trans run
          exact ⟨rfl, rfl, Array.size_modify, fun _ => trivial⟩
        · cases (takeBlock_rejects known fun body same => taken ⟨body, same⟩).symm.trans
            run
  · exact fun block after beyond _ linked => takeBlock_linked braced linked block tok also

/-- A statement expression behind its parenthesis. -/
theorem bracedExpression (within : state.Within w.tokens) (inside : w.low ≤ state.pos)
    (brace : state.sees openBrace = true) {tok : Nat}
    (before : tok ≤ state.pos) (also : Nat) :
    TwinsAt w calm state there .passing
      (do
        Grammar.advance
        Grammar.newNode (.stmtExpr
          (← bracedBlock again >>= fun block => takeBlock block tok)) tok)
      (do
        Grammar.advance
        Grammar.newNode (.stmtExpr
          (← bracedBlock beside >>= fun block => takeBlock block also))
          also) := by
  by_cases plain : w.plain
  · have own : FollowsAt (.self w.sound) state .passing
        (do
          Grammar.advance
          Grammar.newNode (.stmtExpr (← bracedBlock again >>= fun block =>
            takeBlock block tok)) tok)
        (do
          Grammar.advance
          Grammar.newNode (.stmtExpr (← bracedBlock again >>= fun block =>
            takeBlock block tok)) tok) :=
      .skip within brace fun within => .close (Follows.takenBlock twin.own within tok)
        fun body _ => .of_blind
          (.newNode (.before (Nat.lt_succ_of_le (Nat.le_succ_of_le before))) _)
    exact @TwinsAt.unbraced _ _ _ _ _ _ _ _ _ 0 plain within own fun value after run =>
      ⟨brace, own.passes value after run trivial⟩
  · exact .skip_symbol within brace fun within =>
      .close (takenBlock twin plain within (Nat.lt_succ_of_le inside) tok also)
        (fun body _ _ => .of_blind (.newNode (.inl rfl))) (Nat.le_succ_of_le inside)

/-- A primary expression. -/
theorem primary [w.Closes calm] :
    Twins w calm low .passing (Grammar.primary again) (Grammar.primary beside) := by
  refine .get_bind fun state there inside within reached => ?_
  have inside_ := Nat.le_trans inside reached
  change TwinsAt w calm state there .passing
    (if state.sees "(" && state.seesAt (state.pos + 1) openBrace then _ else _)
    (if there.sees "(" && there.seesAt (there.pos + 1) openBrace then _ else _)
  by_cases opens : (state.sees "(" && state.seesAt (state.pos + 1) openBrace) = true
  · have ⟨parenthesis, brace⟩ := Bool.and_eq_true_iff.mp opens
    have more := kind_ne_eof_of_isSymbol parenthesis
    have further := lt_last w.sound.ended within.same more
    rw [if_pos opens]
    refine .behind_two within more (Token.string?_of_isSymbol parenthesis)
      (statementExpression_run again (within.same ▸ further)) (fun linked shown => ?_)
      (bracedExpression twin (Window.within_next within more)
        (Nat.le_succ_of_le inside_) brace (Nat.le_succ _) there.pos)
    have here := shown.mono (Nat.le_succ _)
    rw [here.sees linked, shown.seesAt linked, if_pos opens]
    exact statementExpression_run beside (linked.tokens.symm ▸ here.lt_last linked more)
  · rw [if_neg opens]
    refine @TwinsAt.ahead _ _ _ _ _ _ _ (do
        if ← Grammar.accept "(" then
          let inner ← beside.expr
          Grammar.expect ")"
          return inner
        else if ← Grammar.accept "sizeof" then
          Grammar.sizeof beside there.pos
        else
          Grammar.atom beside) _ _ (fun linked shown faces => ?_) ?_
    · have other :
          ¬ (there.sees "(" && there.seesAt (there.pos + 1) openBrace) = true := by
        intro both
        have ⟨parenthesis, brace⟩ := Bool.and_eq_true_iff.mp both
        rw [shown.sees linked] at parenthesis
        have none : state.seesAt (state.pos + 1) openBrace = false := by
          rw [parenthesis, Bool.true_and] at opens
          simpa using opens
        rw [faces.seesAt linked none fun _ => by decide] at brace
        cases brace
      rw [if_neg other]
    · refine .accept within inside_ (fun _ => by decide) ?_ ?_
      · exact .lead (twin.expr _) fun _ =>
          .peek (.loose (.of_closing (.expect ")"))) fun _ => .pure id trivial
      · by_cases here : state.sees "sizeof" = true
        · have more := kind_ne_eof_of_isSymbol here
          exact .behind_token within more (Token.string?_of_isSymbol here)
            (accept_then here)
            (fun linked shown => accept_then ((shown.sees linked _).trans here))
            ((sizeof twin (Window.within_next within more) (Nat.le_succ_of_le inside_) rfl
              fun _ => rfl).weaken ⟨fun _ never => never.elim, fun _ => id, fun _ => id⟩)
        · have other : state.sees "sizeof" = false := by simpa using here
          exact .congr within (accept_else other) <|
            .shown (fun _ => trivial)
              (fun linked shown => accept_else ((shown.sees linked _).trans other))
              (atom twin inside state there within reached)

omit twin in
/-- The members of a type and of its carried type have the same names and offsets. -/
theorem memberAccess (base : NodeId) :
    Twins w calm low .closing (Grammar.memberAccess base)
      (Grammar.memberAccess (carry w.names base)) := by
  refine .bind (.typeOf base) fun _ => .close_gives .identifier fun named identifier =>
    .bind (.lookupTy _) fun ty => .first_unless (by simp) (.failAt _ _ _ _) fun _ => ?_
  rw [Ty.carry_members, findMember?_carry]
  cases findMember? ty.members named.1 with
  | none => exact .failAt _ _ _ _
  | some found => exact .newTyped (.inl rfl)

/-- One round of the loop over subscripts and member accesses. -/
theorem trailerRound [w.Closes calm] (node : NodeId) :
    Twins w calm low (.round (fun _ => True) (.pushed .passing))
      (Grammar.trailerRound again node)
      (Grammar.trailerRound beside (carry w.names node)) := by
  refine .position_any
    fun tok also _ => .accept (fun _ => by decide) ?_ <| .accept
      (fun _ => by decide) ?_ <| .accept (fun _ => by decide) ?_ (.pure id trivial)
  · exact .lead (twin.expr _) fun index =>
      .peek (.loose (.of_closing (.expect "]"))) fun _ =>
      .bind (.newAdd _ _ _ _) fun _ => .bind (.newNode (.inl rfl)) fun _ =>
        .pure id trivial
  · exact .peek (.loose (.of_closing (.memberAccess node))) fun _ => .pure id trivial
  · exact .bind (.newNode (.inl rfl)) fun _ =>
      .peek (.loose (.of_closing (.memberAccess _))) fun _ => .pure id trivial

theorem trailer [w.Closes calm] :
    Twins w calm low .passing (Grammar.trailer again) (Grammar.trailer beside) :=
  .lead (.primary twin) fun _ => .iterate (fun _ => True) trivial fun node _ =>
    .trailerRound twin node

theorem unary [w.Closes calm] :
    Twins w calm low .passing (Grammar.unary again) (Grammar.unary beside) := by
  refine .position_any fun tok also _ => ?_
  have operated (kind : NodeId -> NodeKind)
      (expression : ∀ operand, (kind operand).isExpression = true)
      (same : ∀ operand, kind (carry w.names operand) = carry w.names (kind operand)) :
      Twins w calm (tok + 1) .peeking
        (do Grammar.newNode (kind (← again.cast)) tok)
        (do Grammar.newNode (kind (← beside.cast)) also) :=
    .lead (twin.cast _) fun operand =>
      .of_blind (same operand ▸ .newNode (.inl (expression operand)))
  exact .accept (fun _ => by decide) (.loose (twin.cast _)) <|
    .accept (fun _ => by decide) (operated (.unary .neg) (fun _ => rfl) fun _ => rfl) <|
      .accept (fun _ => by decide) (operated .addr (fun _ => rfl) fun _ => rfl) <|
        .accept (fun _ => by decide) (operated .deref (fun _ => rfl) fun _ => rfl) <|
          .accept (fun _ => by decide)
            (operated (.unary .not) (fun _ => rfl) fun _ => rfl) <|
            .accept (fun _ => by decide)
              (operated (.unary .bitNot) (fun _ => rfl) fun _ => rfl) (.trailer twin)

/-- A parenthesis opens a type name on both sides or on none. -/
theorem cast [w.Closes calm] :
    Twins w calm low .passing (Grammar.cast again) (Grammar.cast beside) := by
  refine .get_bind fun state there inside within reached => ?_
  have inside_ := Nat.le_trans inside reached
  change TwinsAt w calm state there .passing
    (if state.sees "(" && state.startsType (state.pos + 1) then _ else _)
    (if there.sees "(" && there.startsType (there.pos + 1) then _ else _)
  by_cases typed : (state.sees "(" && state.startsType (state.pos + 1)) = true
  · have ⟨opens, starts⟩ := Bool.and_eq_true_iff.mp typed
    have more := kind_ne_eof_of_isSymbol opens
    have further := lt_last w.sound.ended within.same more
    have converted : Twins w calm (state.pos + 1) .passing
        (do
          let ty ← Grammar.typeName again
          Grammar.expect ")"
          Grammar.newCast (← again.cast) ty state.pos)
        (do
          let ty ← Grammar.typeName beside
          Grammar.expect ")"
          Grammar.newCast (← beside.cast) ty there.pos) :=
      .enclosed (fun _ => trivial) (.typeName twin) fun _ => .close (.expect ")") fun _ =>
        .lead (twin.cast _) fun _ => .of_blind (.newCast _ _ _ _)
    rw [if_pos typed]
    refine .behind_two within more (Token.string?_of_isSymbol opens)
      (bind_run (advance_run (within.same ▸ further))) (fun linked shown => ?_)
      (converted (Nat.le_succ_of_le inside_) _ _ (Window.within_next within more)
        (Nat.le_refl _))
    have here := shown.mono (Nat.le_succ _)
    rw [here.sees linked, shown.startsType linked, if_pos typed]
    exact bind_run (advance_run (linked.tokens.symm ▸ here.lt_last linked more))
  · rw [if_neg typed]
    refine .ahead (fun linked shown faces => ?_)
      (unary twin inside state there within reached)
    have other : ¬ (there.sees "(" && there.startsType (there.pos + 1)) = true := by
      intro both
      have ⟨opens, starts⟩ := Bool.and_eq_true_iff.mp both
      rw [shown.sees linked] at opens
      have none : state.startsType (state.pos + 1) = false := by
        rw [opens, Bool.true_and] at typed
        simpa using typed
      rw [faces.startsType linked none] at starts
      cases starts
    rw [if_neg other]

end

/-! ### Levels of operators -/

/-- Another operand of a chain of binary operators of one level. -/
theorem chainRound [w.Closes calm] {operators : List (String × Join)}
    {operand besideOperand : Parser NodeId}
    (joins : ∀ operator ∈ operators, w.Joins calm operator.2)
    (closed : ∀ operator ∈ operators, operator.1 ≠ ")")
    (each : ∀ low, Twins w calm low .passing operand besideOperand) (lhs : NodeId) :
    Twins w calm low (.round (fun _ => True) (.pushed .passing))
      (Grammar.chainRound operators operand lhs)
      (Grammar.chainRound operators besideOperand (carry w.names lhs)) := by
  refine .get_bind fun state there inside within reached => ?_
  cases found : operators.find? fun operator => state.sees operator.1 with
  | none =>
      refine @TwinsAt.here _ _ _ _ _ _ _ _ (Pure.pure (.done (carry w.names lhs))) _ _
        (fun linked faces => ?_) (Twins.pure id trivial inside state there within reached)
      have none : (operators.find? fun operator => there.sees operator.1) = none := by
        refine List.find?_eq_none.mpr fun operator member sees => ?_
        have missing := List.find?_eq_none.mp found operator member
        have other :=
          faces.sees linked (by simpa using missing) fun _ => closed operator member
        cases sees.symm.trans other
      rw [none]
  | some operator =>
      have here : state.sees operator.1 = true := by simpa using List.find?_some found
      have more := kind_ne_eof_of_isSymbol here
      have joined : Twins w calm (state.pos + 1)
          (.landed (.round (fun _ => True) (.pushed .passing)))
          (do
            let rhs ← operand
            return .again (← operator.2 lhs rhs state.pos) : Parser (Round NodeId NodeId))
          (do
            let rhs ← besideOperand
            return .again (← operator.2 (carry w.names lhs) rhs there.pos)) :=
        .lead (each _) fun rhs =>
          .bind (joins operator (List.mem_of_find?_eq_some found) _
          lhs rhs _ _) fun _ => .pure id trivial
      refine .behind_token within more (Token.string?_of_isSymbol here) rfl
        (fun linked shown => ?_)
        (joined (Nat.le_succ_of_le (Nat.le_trans inside reached)) _ _
          (Window.within_next within more) (Nat.le_refl _))
      have same :
          (operators.find? fun operator => there.sees operator.1) = some operator := by
        rw [← found]
        exact congrArg (operators.find? ·)
          (funext fun operator => shown.sees linked operator.1)
      rw [same]
      rfl

/-- A level of operators, if each joins its operands. -/
theorem leftChain [w.Closes calm] {operators : List (String × Join)}
    {operand besideOperand : Parser NodeId}
    (joins : ∀ operator ∈ operators, w.Joins calm operator.2)
    (closed : ∀ operator ∈ operators, operator.1 ≠ ")")
    (each : ∀ low, Twins w calm low .passing operand besideOperand) :
    Twins w calm low .passing (Grammar.leftChain operators operand)
      (Grammar.leftChain operators besideOperand) :=
  .lead (each _) fun _ => .iterate (fun _ => True) trivial fun lhs _ =>
    .chainRound joins closed each lhs

section

variable {again beside : Productions} (twin : again.Twin w calm beside) [w.Closes calm]

include twin

theorem product :
    Twins w calm low .passing (Grammar.product again) (Grammar.product beside) :=
  .leftChain (by simp [Window.joins_newIntegerBinary]) (by simp) fun _ => .cast twin

theorem sum : Twins w calm low .passing (Grammar.sum again) (Grammar.sum beside) :=
  .leftChain (by simp [Window.joins_newAdd, Window.joins_newSub]) (by simp)
    fun _ => .product twin

theorem relational :
    Twins w calm low .passing (Grammar.relational again) (Grammar.relational beside) :=
  .leftChain (by simp [Window.joins_newBinary]) (by simp) fun _ => .sum twin

theorem equality :
    Twins w calm low .passing (Grammar.equality again) (Grammar.equality beside) :=
  .leftChain (by simp [Window.joins_newBinary]) (by simp) fun _ => .relational twin

theorem logAnd :
    Twins w calm low .passing (Grammar.logAnd again) (Grammar.logAnd beside) :=
  .leftChain (by simp [Window.joins_newBinary]) (by simp) fun _ => .equality twin

theorem logOr : Twins w calm low .passing (Grammar.logOr again) (Grammar.logOr beside) :=
  .leftChain (by simp [Window.joins_newBinary]) (by simp) fun _ => .logAnd twin

/-- The production of any level. -/
theorem parserAt {level : Nat} (binary : 2 ≤ level) :
    Twins w calm low .passing (Grammar.parserAt again level)
      (Grammar.parserAt beside level) := by
  obtain rfl | rfl | rfl | rfl | rfl | rfl | tight : level = 2 ∨ level = 3 ∨ level = 4 ∨
    level = 5 ∨ level = 6 ∨ level = 7 ∨ ∃ more, level = more + 8 := by
      by_cases tight : 8 ≤ level
      · exact .inr (.inr (.inr (.inr (.inr (.inr ⟨level - 8, by omega⟩)))))
      · omega
  · exact .logOr twin
  · exact .logAnd twin
  · exact .equality twin
  · exact .relational twin
  · exact .sum twin
  · exact .product twin
  · obtain ⟨more, rfl⟩ := tight
    exact .cast twin

/-! ### Assignments and sequences -/

/-- The right side of an assignment is an assignment again. -/
theorem assign :
    Twins w calm low .passing (Grammar.assign again) (Grammar.assign beside) :=
  .lead (.logOr twin) fun _ => .position_any fun _ _ _ => .accept (fun _ => by decide)
    (.lead (twin.assign _) fun _ => .of_blind (.newAssign _ _ _ _)) (.pure id trivial)

/-- An expression is a list of assignments between commas. -/
theorem expr : Twins w calm low .passing (Grammar.expr again) (Grammar.expr beside) :=
  .lead (.assign twin) fun _ => .position_any fun _ _ _ => .accept (fun _ => by decide)
    (.lead (twin.expr _) fun _ => .of_blind (.newNode (.inl rfl))) (.pure id trivial)

end
end Twins
end Grammar
end MiniC
