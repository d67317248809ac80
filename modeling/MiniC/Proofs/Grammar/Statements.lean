import MiniC.Grammar.Statement
import MiniC.Proofs.Grammar.Expressions

/-!
# Statements keep the invariant

Every statement consumes a token and gives a node that is a statement of the function
being parsed, or rejects the source text at a token.  A block leaves the scopes as it
found them.
-/

namespace MiniC
namespace Grammar

variable {tokens : TokenStream} {base budget : Nat} {state : State} {again : Productions}

/-! ## Scopes and labels -/

/-- A scope that is entered holds no names. -/
theorem Inv.enter (inv : Inv tokens base state) :
    Inv tokens base { state with scopes := state.scopes.enter } :=
  inv.rescope inv.scopes.enter

/-- A run inside a scope of its own leaves the scopes alone. -/
theorem Moved.leave {after : State}
    (ran : Moved tokens base { state with scopes := state.scopes.enter } after) :
    Moved tokens base state { after with scopes := after.scopes.leave } where
  inv := ran.inv.rescope ran.inv.scopes.leave
  extended := ran.extended
  result := ran.result
  locals := ran.locals
  outer := by
    have same := ran.outer.leave_eq
    change SameOuter state.scopes after.scopes.leave
    rw [same]
    exact .refl _
  forward := ran.forward

/-- A statement read inside a scope of its own. -/
theorem StatementRead.leave {id : NodeId} {after : State}
    (read : StatementRead tokens base
      { state with scopes := state.scopes.enter } id after) :
    StatementRead tokens base state id { after with scopes := after.scopes.leave } :=
  ⟨read.ran.leave, read.forward, ⟨read.part.near, read.part.is⟩, read.accounts⟩

/-- A scope of a function is inside of it. -/
theorem InFunction.enter (inside : InFunction state) :
    InFunction { state with scopes := state.scopes.enter } :=
  ⟨inside.function, by simp [Scopes.enter]⟩

/-- Noting a label or a jump of the function being parsed. -/
theorem modifyFunction_meets (inv : Inv tokens base state) (inside : InFunction state)
    {change : FunctionContext -> FunctionContext} {sign : Sign}
    (result : ∀ context, (change context).result = context.result)
    (locals : ∀ context, (change context).locals = context.locals)
    (nodup : ∀ context, state.function = some context -> (change context).labels.Nodup)
    (signs : ∀ context, (change context).signs.Perm (sign :: context.signs)) :
    Meets tokens (modifyFunction change) state fun _ after =>
      Moved tokens base state after ∧ after.pos = state.pos ∧
        after.signs.Perm (sign :: state.signs) := by
  obtain ⟨context, function⟩ := Option.isSome_iff_exists.mp inside.function
  have noted := inv.note function (nodup context function) (change context).gotos
  have changed : change context =
      { context with
        labels := (change context).labels
        gotos := (change context).gotos } := by
    rw [← result context, ← locals context]
  have same : ({ state with function := state.function.map change } : State) =
      { state with
        function := some
          { context with
            labels := (change context).labels, gotos := (change context).gotos } } := by
    rw [function, Option.map_some, ← changed]
  have known : modifyFunction change state =
      .ok () { state with function := state.function.map change } := rfl
  unfold Meets
  rw [known, same]
  refine ⟨⟨noted, .refl _, by simp [function], ?_, .refl _, Nat.le_refl _⟩, rfl, ?_⟩
  · simp [State.locals, function]
  · have own : state.signs = context.signs := by simp [State.signs, function]
    rw [own]
    exact signs context

/-! ## Nodes of statements -/

/-- A statement without local variables of its own that returns nothing. -/
theorem newPlain_meets (inv : Inv tokens base state) (kind : NodeKind)
    (statement : kind.isExpression = false)
    (typing : state.program.TypingRule .void kind)
    (noReturn : ∀ value, kind ≠ .ret (some value))
    (operands : ∀ child ∈ kind.operands, Operand base state child)
    (parts : ∀ child ∈ kind.parts, Part base state child) (tok : Nat) :
    Meets tokens (newNode kind tok) state (Entered tokens base state kind) := by
  refine newStatement_meets inv statement ⟨operands, parts, ?_, ?_⟩ typing tok
  · rintro id rfl
    simp [NodeKind.isExpression] at statement
  · intro value _ equal
    exact absurd equal (noReturn value)

/-- A statement without a label entered behind a run that has consumed a token. -/
theorem Entered.statementRead {before after : State} {kind : NodeKind} {id : NodeId}
    (entered : Entered tokens base state kind id after)
    (statement : kind.isExpression = false) (silent : kind.sign? = none)
    (ran : Moved tokens base before state) (forward : before.pos < state.pos)
    (accounts : Accounts tokens before state kind.children) :
    StatementRead tokens base before id after := by
  obtain ⟨ty, node⟩ := entered
  refine ⟨ran.trans node.ran.toMoved, by rw [node.stays]; exact forward,
    node.part statement, accounts.build (fun signs below => ?_) node.ran.signs⟩
  have bears := node.bears below
  rwa [silent] at bears

/-- A statement with a label or a jump that was noted before. -/
theorem Entered.noted {before first after : State} {kind : NodeKind}
    {id : NodeId} {sign : Sign} (entered : Entered tokens base state kind id after)
    (statement : kind.isExpression = false) (own : kind.sign? = some sign)
    (ran : Moved tokens base before state) (forward : before.pos < state.pos)
    (noted : first.signs.Perm (sign :: before.signs))
    (accounts : Accounts tokens first state kind.children) :
    StatementRead tokens base before id after := by
  obtain ⟨ty, node⟩ := entered
  refine ⟨ran.trans node.ran.toMoved, by rw [node.stays]; exact forward,
    node.part statement, accounts.note noted (fun signs below => ?_) node.ran.signs⟩
  have bears := node.bears below
  rwa [own] at bears

/-! ## Declarations -/

/-- A variable whose type passes the check has a size. -/
theorem checkVariableTy_meets (inv : Inv tokens base state) {ty : TyId} {entry : Ty}
    (found : state.program.types.get? ty = some entry) (tok : Nat) :
    Checks tokens state (checkVariableTy ty tok) (0 ≤ entry.size) := by
  refine lookupTy_meets found ?_
  refine .rejectIf (.failAt inv.same) fun _ => ?_
  split
  · exact .failAt inv.same
  · exact .pure ⟨rfl, by omega⟩

section Declarations

variable (allSound : again.Sound tokens budget) (sound : tokens.Sound)

include allSound sound

/-- An initialiser is an assignment to the variable, as a statement. -/
theorem initialiser_meets (inv : Inv tokens base state)
    (near : tokens.last - state.pos ≤ budget) (inside : InFunction state)
    {id : SymbolId} {symbol : Symbol} (found : state.program.symbol? id = some symbol)
    (own : id ∈ state.locals) (tok : Nat) :
    Meets tokens (initialiser again id tok) state fun body after =>
      Moved tokens base state after ∧ (∀ part ∈ body, Part base after part) ∧
        Accounts tokens state after body := by
  refine .position (.accept sound inv.same ?_ ?_)
  · intro _ before
    have stepped := Ran.next inv before
    refine .bind (newVar_meets stepped.inv found (fun _ => own) tok) ?_
    intro lhs first lhsBuilt
    have left := lhsBuilt.read stepped (Nat.lt_succ_self _)
    have closer : tokens.last - first.pos ≤ budget := by
      have forward := left.forward
      omega
    refine .bind (assign_meets allSound sound lhsBuilt.ran.inv closer
      (left.ran.inFunction inside)) ?_
    intro rhs second rhsRead
    refine .bind (newAssign_meets rhsRead.ran.inv (rhsRead.ran.operand lhsBuilt.operand)
      rhsRead.operand state.pos) ?_
    intro assignment third built
    refine .bind (newPlain_meets built.ran.inv (.exprStmt assignment) rfl rfl (by simp)
      ?_ (by simp [NodeKind.parts]) state.pos) ?_
    · intro child member
      obtain rfl := List.mem_singleton.mp member
      exact built.operand
    · intro statement after entered
      have value := left.join rhsRead built
      have read := entered.statementRead rfl rfl value.ran value.forward value.accounts
      refine .pure ⟨read.ran, ?_, read.accounts⟩
      intro part member
      obtain rfl := List.mem_singleton.mp member
      exact read.part
  · intro _
    exact .pure ⟨.refl inv, by simp, .none rfl⟩

/-- A local variable is declared in front of its initialiser. -/
theorem declareLocal_meets {start : State} (inv : Inv tokens base state)
    (near : tokens.last - state.pos ≤ budget) (inside : InFunction state)
    {body : List NodeId} (parts : ∀ part ∈ body, Part base state part)
    (accounts : Accounts tokens start state body)
    {declared : Declarator} (has : state.program.types.Has declared.ty) (tok : Nat) :
    Meets tokens (declareLocal again body declared tok) state fun more after =>
      Moved tokens base state after ∧ (∀ part ∈ more, Part base after part) ∧
        Accounts tokens start after more := by
  obtain ⟨entry, found⟩ := TypeTable.has_iff.mp has
  refine .bind (checkVariableTy_meets inv found tok) ?_
  rintro _ _ ⟨rfl, sized⟩
  refine .get (.bind (newLocal_meets inv inside _ found sized) ?_)
  rintro id first ⟨ran, locals, stays, there⟩
  refine .bind (initialiser_meets allSound sound ran.inv (by rw [stays]; exact near)
    (ran.inFunction inside) there (by simp [locals]) tok) ?_
  rintro more second ⟨further, added, accounted⟩
  have whole := ran.toMoved.trans further
  refine .pure ⟨whole, ?_, (accounts.onward ran).append accounted further.extended⟩
  intro part member
  rcases List.mem_append.mp member with earlier | last
  · exact whole.part (parts part earlier)
  · exact added part last

/-- A declaration is the block of its initialisers. -/
theorem declaration_meets (inv : Inv tokens base state)
    (near : tokens.last - state.pos ≤ budget) (inside : InFunction state) {ty : TyId}
    (has : state.program.types.Has ty) :
    Meets tokens (declaration again ty) state (StatementRead tokens base state) := by
  refine .position (.bind (declaratorList_meets allSound sound (fun body after =>
    (∀ part ∈ body, Part base after part) ∧ Accounts tokens state after body)
      ?_ inv near has
    ⟨by simp, .none rfl⟩ ?_) ?_)
  · rintro body before after ⟨parts, accounts⟩ ran
    exact ⟨fun part member => ran.part (parts part member), accounts.onward ran⟩
  · rintro body declared tok current ran ⟨parts, accounts⟩ declaredHas closeEnough
    exact declareLocal_meets allSound sound ran.inv closeEnough
      (ran.inFunction inside) parts accounts declaredHas tok
  · rintro body after ⟨ran, forward, parts, accounts⟩
    refine (newPlain_meets ran.inv (.block body) rfl rfl (by simp)
      (by simp [NodeKind.operands]) parts state.pos).weaken ?_
    intro id last entered
    exact entered.statementRead rfl rfl ran forward accounts

/-- A `typedef` binds names to types. -/
theorem typedefNames_meets (inv : Inv tokens base state)
    (near : tokens.last - state.pos ≤ budget) {ty : TyId}
    (has : state.program.types.Has ty) :
    Meets tokens (typedefNames again ty) state fun _ after =>
      Ran tokens base state after ∧ state.pos < after.pos := by
  refine (plainDeclaratorList_meets allSound sound (fun _ _ => True)
    (by simp) inv near has trivial ?_).weaken ?_
  · intro _ declared tok current ran _ declaredHas
    have fine (name : String) :
        BindingRule current.program [] name (.typedef declared.ty) :=
      declaredHas
    refine .get ((declareVariable_meets ran.inv _ (fine _)).weaken ?_)
    rintro _ after ⟨declaredRan, _⟩
    exact ⟨declaredRan, trivial⟩
  · rintro _ after ⟨ran, forward, _⟩
    exact ⟨ran, forward⟩

end Declarations

/-! ## Statements -/

/-- A `goto` notes its label for the end of the function. -/
theorem gotoStmt_meets (sound : tokens.Sound) (inv : Inv tokens base state)
    (inside : InFunction state) (tok : Nat) :
    Meets tokens (gotoStmt tok) state (StatementRead tokens base state) := by
  refine .identifier sound inv.same fun _ before => ?_
  have named := Ran.next inv before
  refine .expect sound named.inv.same fun _ further => ?_
  have closed := named.trans (Ran.next named.inv further)
  refine .bind (@modifyFunction_meets _ _ _ closed.inv (closed.inFunction inside) _
    (.goto state.current.text) (fun _ => rfl) (fun _ => rfl) closed.inv.labels_nodup ?_)
      ?_
  · intro context
    simp only [FunctionContext.signs, List.map_append, List.map_cons, List.map_nil,
      ← List.append_assoc]
    exact List.perm_append_comm
  rintro _ second ⟨noted, stays, signs⟩
  refine (newPlain_meets noted.inv (.goto state.current.text) rfl rfl (by simp)
    (by simp [NodeKind.operands]) (by simp [NodeKind.parts]) tok).weaken ?_
  intro id after entered
  refine entered.noted rfl rfl (closed.toMoved.trans noted) ?_ signs (.none rfl)
  rw [stays]
  exact Nat.lt_succ_of_lt (Nat.lt_succ_self _)

section Statements

variable (allSound : again.Sound tokens budget) (sound : tokens.Sound)

include allSound sound

/-- A statement that is an expression, or empty. -/
theorem exprStmt_meets (inv : Inv tokens base state)
    (near : tokens.last - state.pos ≤ budget) (inside : InFunction state) :
    Meets tokens (exprStmt again) state (StatementRead tokens base state) := by
  refine .position (.accept sound inv.same ?_ ?_)
  · intro _ before
    have stepped := Ran.next inv before
    refine (newPlain_meets stepped.inv (.block []) rfl rfl (by simp)
      (by simp [NodeKind.operands]) (by simp [NodeKind.parts]) state.pos).weaken ?_
    intro id after entered
    exact entered.statementRead rfl rfl stepped.toMoved (Nat.lt_succ_self _)
      (.none stepped.signs)
  · intro _
    refine .bind (expr_meets allSound sound inv near inside) ?_
    intro value first read
    refine .expect sound read.ran.inv.same fun _ before => ?_
    have whole := read.onward (Ran.next read.ran.inv before)
    refine (newPlain_meets whole.ran.inv (.exprStmt value) rfl rfl (by simp) ?_
      (by simp [NodeKind.parts]) state.pos).weaken ?_
    · intro child member
      obtain rfl := List.mem_singleton.mp member
      exact whole.operand
    · intro id after entered
      exact entered.statementRead rfl rfl whole.ran whole.forward whole.accounts

/-- What is returned is converted to the result type. -/
theorem returnStmt_meets (inv : Inv tokens base state)
    (close : tokens.last - state.pos < budget) (inside : InFunction state) (tok : Nat) :
    Meets tokens (returnStmt again tok) state (StatementRead tokens base state) := by
  refine .accept sound inv.same ?_ ?_
  · intro _ before
    have stepped := Ran.next inv before
    refine (newPlain_meets stepped.inv (.ret none) rfl rfl (by simp)
      (by simp [NodeKind.operands]) (by simp [NodeKind.parts]) tok).weaken ?_
    intro id after entered
    exact entered.statementRead rfl rfl stepped.toMoved (Nat.lt_succ_self _)
      (.none stepped.signs)
  intro _
  refine .bind (allSound.expr inv close inside) ?_
  intro value first read
  refine .expect sound read.ran.inv.same fun _ before => ?_
  have whole := read.onward (Ran.next read.ran.inv before)
  obtain ⟨context, function⟩ :=
    Option.isSome_iff_exists.mp (whole.ran.inFunction inside).function
  refine .get ?_
  rw [function]
  obtain ⟨entry, found⟩ := TypeTable.has_iff.mp (whole.ran.inv.result context function)
  refine lookupTy_meets found ?_
  split
  · rename_i empty
    have enterable : Enterable base first.next (.ret (some value)) :=
      { operands := by
          intro child member
          obtain rfl := List.mem_singleton.mp member
          exact whole.operand
        parts := by simp [NodeKind.parts]
        own := by simp
        returned := by
          intro other again _ same
          rw [function] at same
          obtain rfl : context = again := by simpa using same
          exact .inl ⟨entry, found, empty⟩ }
    refine (newStatement_meets whole.ran.inv rfl enterable rfl tok).weaken ?_
    intro id after entered
    exact entered.statementRead rfl rfl whole.ran whole.forward whole.accounts
  · refine .bind (newCast_meets whole.ran.inv whole.operand
      (whole.ran.inv.result context function) tok) ?_
    intro converted second cast
    have last := whole.build (cast.built rfl)
    have enterable : Enterable base second (.ret (some converted)) :=
      { operands := by
          intro child member
          obtain rfl := List.mem_singleton.mp member
          exact cast.operand rfl
        parts := by simp [NodeKind.parts]
        own := by simp
        returned := by
          intro other again equal same
          obtain rfl : converted = other := by simpa using equal
          have result := cast.ran.result
          rw [same, function] at result
          obtain ⟨node, there, kind, typed⟩ := cast.node
          refine .inr ⟨node, value, there, kind, ?_⟩
          rw [typed]
          simpa using result.symm }
    refine (newStatement_meets last.ran.inv rfl enterable rfl tok).weaken ?_
    intro id after entered
    exact entered.statementRead rfl rfl last.ran last.forward last.accounts

/-- A condition is a scalar. -/
theorem condition_meets (inv : Inv tokens base state)
    (close : tokens.last - state.pos < budget) (inside : InFunction state) (tok : Nat) :
    Meets tokens (condition again tok) state fun cond after =>
      ValueRead tokens base state cond after ∧ after.program.IsScalar cond := by
  refine .expect sound inv.same fun _ before => ?_
  have opened := Ran.next inv before
  have closer : tokens.last - state.next.pos < budget := by
    rw [State.next_pos]
    omega
  refine .bind (allSound.expr opened.inv closer (opened.inFunction inside)) ?_
  intro cond first read
  obtain ⟨_, _, typed⟩ := read.operand.hasTy read.ran.inv
  refine .bind (checkScalar_meets read.ran.inv typed tok) ?_
  rintro _ _ ⟨rfl, scalar⟩
  refine .expect sound read.ran.inv.same fun _ further => .pure ?_
  have closed := Ran.next read.ran.inv further
  exact ⟨(read.behind opened).onward closed, _, _, closed.extended.hasTy typed, scalar⟩

/-- A branch is made of a condition and one or two statements. -/
theorem ifStmt_meets (inv : Inv tokens base state)
    (close : tokens.last - state.pos < budget) (inside : InFunction state) (tok : Nat) :
    Meets tokens (ifStmt again tok) state (StatementRead tokens base state) := by
  have near := Nat.le_of_lt close
  refine .bind (condition_meets allSound sound inv close inside tok) ?_
  rintro cond first ⟨condRead, scalar⟩
  refine .bind (allSound.stmt condRead.ran.inv (condRead.ran.closer near condRead.forward)
    (condRead.ran.inFunction inside)) ?_
  intro onTrue second trueRead
  have ran := condRead.ran.trans trueRead.ran
  have forward := Nat.lt_trans condRead.forward trueRead.forward
  have accounts := condRead.accounts.append trueRead.accounts trueRead.ran.extended
  refine .accept sound ran.inv.same ?_ ?_
  · intro _ before
    have stepped := Ran.next ran.inv before
    have whole := ran.trans stepped.toMoved
    refine .bind (allSound.stmt stepped.inv
      (whole.closer near (Nat.lt_succ_of_lt forward)) (whole.inFunction inside)) ?_
    intro onFalse third falseRead
    have later := falseRead.behind stepped
    have last := ran.trans later.ran
    have condScalar := (trueRead.ran.trans later.ran).grows.isScalar scalar
    refine (newPlain_meets last.inv (.branch cond onTrue (some onFalse)) rfl
      ⟨condScalar, rfl⟩ (by simp) ?_ ?_ tok).weaken ?_
    · intro child member
      obtain rfl := List.mem_singleton.mp member
      exact (trueRead.ran.trans later.ran).operand condRead.operand
    · intro child member
      rcases List.mem_cons.mp member with rfl | further
      · exact later.ran.part trueRead.part
      · obtain rfl : child = onFalse := by simpa using further
        exact falseRead.part
    · intro id after entered
      exact entered.statementRead rfl rfl last (Nat.lt_trans forward later.forward)
        (accounts.append later.accounts later.ran.extended)
  · intro _
    refine (newPlain_meets ran.inv (.branch cond onTrue none) rfl
      ⟨trueRead.ran.grows.isScalar scalar, rfl⟩ (by simp) ?_ ?_ tok).weaken ?_
    · intro child member
      obtain rfl := List.mem_singleton.mp member
      exact trueRead.ran.operand condRead.operand
    · intro child member
      obtain rfl : child = onTrue := by simpa [NodeKind.parts] using member
      exact trueRead.part
    · intro id after entered
      exact entered.statementRead rfl rfl ran forward accounts

/-- A loop is made of a condition and a statement. -/
theorem whileStmt_meets (inv : Inv tokens base state)
    (close : tokens.last - state.pos < budget) (inside : InFunction state) (tok : Nat) :
    Meets tokens (whileStmt again tok) state (StatementRead tokens base state) := by
  refine .bind (condition_meets allSound sound inv close inside tok) ?_
  rintro cond first ⟨condRead, scalar⟩
  refine .bind (allSound.stmt condRead.ran.inv
    (condRead.ran.closer (Nat.le_of_lt close) condRead.forward)
    (condRead.ran.inFunction inside)) ?_
  intro body second bodyRead
  have ran := condRead.ran.trans bodyRead.ran
  have typing : second.program.TypingRule .void (.loop none (some cond) none body) :=
    ⟨by simpa using bodyRead.ran.grows.isScalar scalar, rfl⟩
  refine (newPlain_meets ran.inv (.loop none (some cond) none body) rfl typing
    (by simp) ?_ ?_ tok).weaken ?_
  · intro child member
    obtain rfl : child = cond := by simpa [NodeKind.operands] using member
    exact bodyRead.ran.operand condRead.operand
  · intro child member
    obtain rfl : child = body := by simpa [NodeKind.parts] using member
    exact bodyRead.part
  · intro id after entered
    exact entered.statementRead rfl rfl ran
      (Nat.lt_trans condRead.forward bodyRead.forward)
      (condRead.accounts.append bodyRead.accounts bodyRead.ran.extended)

/-- A `for` statement begins with a declaration or an expression, as a statement. -/
theorem forInit_meets (inv : Inv tokens base state)
    (near : tokens.last - state.pos ≤ budget) (inside : InFunction state) :
    Meets tokens (forInit again) state (StatementRead tokens base state) := by
  refine .get ?_
  split
  · refine .bind (specifiers_meets sound allSound inv near false) ?_
    rintro ⟨ty, storage⟩ first read
    have closer : tokens.last - first.pos ≤ budget := by
      have forward := read.ran.forward
      omega
    exact (declaration_meets allSound sound read.ran.inv closer
      (read.ran.inFunction inside)
      read.has).weaken fun _ _ declared => declared.behind read.ran
  · exact exprStmt_meets allSound sound inv near inside

theorem forCond_meets (inv : Inv tokens base state)
    (close : tokens.last - state.pos < budget) (inside : InFunction state) (tok : Nat) :
    Meets tokens (forCond again tok) state fun cond after =>
      Moved tokens base state after ∧ (∀ id ∈ cond, Operand base after id) ∧
        (∀ id ∈ cond, after.program.IsScalar id) ∧
        Accounts tokens state after cond.toList := by
  refine .accept sound inv.same ?_ ?_
  · intro _ before
    have stepped := Ran.next inv before
    exact .pure ⟨stepped.toMoved, by simp, by simp, .none stepped.signs⟩
  intro _
  refine .bind (allSound.expr inv close inside) ?_
  intro cond first read
  obtain ⟨_, _, typed⟩ := read.operand.hasTy read.ran.inv
  refine .bind (checkScalar_meets read.ran.inv typed tok) ?_
  rintro _ _ ⟨rfl, scalar⟩
  refine .expect sound read.ran.inv.same fun _ before => .pure ?_
  have stepped := Ran.next read.ran.inv before
  have whole := read.onward stepped
  refine ⟨whole.ran, ?_, ?_, whole.accounts⟩
  · intro id member
    obtain rfl : cond = id := by simpa using member
    exact whole.operand
  · intro id member
    obtain rfl : cond = id := by simpa using member
    exact ⟨_, _, stepped.extended.hasTy typed, scalar⟩

theorem forStep_meets (inv : Inv tokens base state)
    (close : tokens.last - state.pos < budget) (inside : InFunction state) :
    Meets tokens (forStep again) state fun step after =>
      Moved tokens base state after ∧ (∀ id ∈ step, Operand base after id) ∧
        Accounts tokens state after step.toList := by
  refine .accept sound inv.same ?_ ?_
  · intro _ before
    have stepped := Ran.next inv before
    exact .pure ⟨stepped.toMoved, by simp, .none stepped.signs⟩
  intro _
  refine .bind (allSound.expr inv close inside) ?_
  intro step first read
  refine .expect sound read.ran.inv.same fun _ before => .pure ?_
  have whole := read.onward (Ran.next read.ran.inv before)
  refine ⟨whole.ran, ?_, whole.accounts⟩
  intro id member
  obtain rfl : step = id := by simpa using member
  exact whole.operand

/-- A `for` statement is a loop in a scope of its own. -/
theorem forStmt_meets (inv : Inv tokens base state)
    (close : tokens.last - state.pos < budget) (inside : InFunction state) (tok : Nat) :
    Meets tokens (forStmt again tok) state (StatementRead tokens base state) := by
  refine .expect sound inv.same fun _ before => ?_
  have opened := Ran.next inv before
  have closer : tokens.last - state.next.pos < budget := by
    rw [State.next_pos]
    omega
  refine .withScope ?_
  have inFor := (opened.inFunction inside).enter
  have entered := opened.inv.enter
  refine .bind (forInit_meets allSound sound entered (Nat.le_of_lt closer) inFor) ?_
  intro init first initRead
  have nearFirst : tokens.last - first.pos < budget :=
    initRead.ran.closer (Nat.le_of_lt closer) initRead.forward
  refine .bind (forCond_meets allSound sound initRead.ran.inv nearFirst
    (initRead.ran.inFunction inFor) tok) ?_
  rintro cond second ⟨condRan, condOperand, condScalar, condAccounts⟩
  have ranSecond := initRead.ran.trans condRan
  have nearSecond : tokens.last - second.pos < budget := by
    have forward := condRan.forward
    omega
  refine .bind (forStep_meets allSound sound condRan.inv nearSecond
    (ranSecond.inFunction inFor)) ?_
  rintro step third ⟨stepRan, stepOperand, stepAccounts⟩
  have ranThird := ranSecond.trans stepRan
  have nearThird : tokens.last - third.pos < budget := by
    have forward := stepRan.forward
    omega
  refine .bind (allSound.stmt stepRan.inv nearThird (ranThird.inFunction inFor)) ?_
  intro body fourth bodyRead
  have ran := ranThird.trans bodyRead.ran
  have typing : fourth.program.TypingRule .void (.loop (some init) cond step body) :=
    ⟨fun id member => (stepRan.trans bodyRead.ran).grows.isScalar
      (condScalar id member), rfl⟩
  have accounts := ((initRead.accounts.append condAccounts condRan.extended).append
    stepAccounts stepRan.extended).append bodyRead.accounts bodyRead.ran.extended
  refine (newPlain_meets ran.inv (.loop (some init) cond step body) rfl typing
    (by simp) ?_ ?_ tok).weaken ?_
  · intro child member
    simp only [NodeKind.operands, List.mem_append, Option.mem_toList] at member
    rcases member with inCond | inStep
    · exact (stepRan.trans bodyRead.ran).operand (condOperand child inCond)
    · exact bodyRead.ran.operand (stepOperand child inStep)
  · intro child member
    simp only [NodeKind.parts, Option.toList_some, List.cons_append, List.nil_append,
      List.mem_cons, List.not_mem_nil, or_false] at member
    rcases member with rfl | rfl
    · exact ((condRan.trans stepRan).trans bodyRead.ran).part initRead.part
    · exact bodyRead.part
  · intro id after node
    have forward : state.next.pos < fourth.pos := Nat.lt_of_lt_of_le initRead.forward
      ((condRan.trans stepRan).trans bodyRead.ran).forward
    exact (node.statementRead rfl rfl ran forward accounts).leave.behind opened

/-- A label is noted for the function, unless it has that one already. -/
theorem labelStmt_meets (inv : Inv tokens base state)
    (near : tokens.last - state.pos ≤ budget) (inside : InFunction state) (tok : Nat) :
    Meets tokens (labelStmt again tok) state (StatementRead tokens base state) := by
  refine .identifier sound inv.same fun _ before => ?_
  have named := Ran.next inv before
  refine .expect sound named.inv.same fun _ further => ?_
  have opened := named.trans (Ran.next named.inv further)
  refine .get (.rejectIf (.failAt opened.inv.same) fun fresh => ?_)
  refine .bind (@modifyFunction_meets _ _ _ opened.inv (opened.inFunction inside) _
    (.label state.current.text) (fun _ => rfl) (fun _ => rfl) ?_ ?_) ?_
  · intro context function
    have own : state.function = some context := function
    have absent : state.current.text ∉ context.labels := by
      simpa [State.definesLabel, own] using fresh
    exact List.nodup_append.mpr ⟨opened.inv.labels_nodup context function, by simp, by
      rintro label member other single rfl
      exact absent (List.mem_singleton.mp single ▸ member)⟩
  · intro context
    simp only [FunctionContext.signs, List.map_append, List.map_cons, List.map_nil,
      List.append_assoc]
    exact List.perm_middle
  rintro _ second ⟨noted, stays, signs⟩
  have ran := opened.toMoved.trans noted
  have forward : state.pos < second.pos := by
    rw [stays]
    exact Nat.lt_succ_of_lt (Nat.lt_succ_self _)
  refine .bind (allSound.stmt ran.inv (ran.closer near forward) (ran.inFunction inside))
    ?_
  intro body third read
  refine (newPlain_meets read.ran.inv (.label state.current.text body) rfl rfl (by simp)
    (by simp [NodeKind.operands]) ?_ tok).weaken ?_
  · intro child member
    obtain rfl := List.mem_singleton.mp member
    exact read.part
  · intro id after entered
    exact entered.noted rfl rfl (ran.trans read.ran)
      (Nat.lt_trans forward read.forward) signs read.accounts

/-- The first token decides which statement is read. -/
theorem stmt_meets (inv : Inv tokens base state)
    (near : tokens.last - state.pos ≤ budget) (inside : InFunction state) :
    Meets tokens (stmt again) state (StatementRead tokens base state) := by
  have behind {kind : Nat -> Parser NodeId}
      (meets : ∀ {current}, Inv tokens base current ->
        tokens.last - current.pos < budget -> InFunction current ->
        Meets tokens (kind state.pos) current (StatementRead tokens base current))
      (before : state.pos < tokens.last) :
      Meets tokens (kind state.pos) state.next (StatementRead tokens base state) := by
    have stepped := Ran.next inv before
    exact (meets stepped.inv (stepped.closer near (Nat.lt_succ_self _))
      (stepped.inFunction inside)).weaken fun _ _ read => read.behind stepped
  refine .position (.accept sound inv.same ?_ ?_)
  · intro _ before
    exact behind (fun now close within => returnStmt_meets allSound sound now
      close within _) before
  intro _
  refine .accept sound inv.same ?_ ?_
  · intro _ before
    exact behind (fun now close within => ifStmt_meets allSound sound now close within _)
      before
  intro _
  refine .accept sound inv.same ?_ ?_
  · intro _ before
    exact behind (fun now close within => forStmt_meets allSound sound now close within _)
      before
  intro _
  refine .accept sound inv.same ?_ ?_
  · intro _ before
    exact behind (fun now close within => whileStmt_meets allSound sound now
      close within _) before
  intro _
  refine .accept sound inv.same ?_ ?_
  · intro _ before
    exact behind (fun now _ within => gotoStmt_meets sound now within _) before
  intro _
  refine .get ?_
  split
  · exact labelStmt_meets allSound sound inv near inside _
  refine .accept sound inv.same ?_ ?_
  · intro _ before
    have stepped := Ran.next inv before
    exact (allSound.block stepped.inv (stepped.closer near (Nat.lt_succ_self _))
      (stepped.inFunction inside)).weaken
        fun _ _ read => read.toStatementRead.behind stepped
  · intro _
    exact exprStmt_meets allSound sound inv near inside

end Statements

/-! ## Blocks -/

section Blocks

variable (allSound : again.Sound tokens budget) (sound : tokens.Sound)

include allSound sound

/-- An item of a block consumes a token and contributes statements. -/
theorem blockItem_meets (inv : Inv tokens base state)
    (near : tokens.last - state.pos ≤ budget) (inside : InFunction state) :
    Meets tokens (blockItem again) state fun items after =>
      Moved tokens base state after ∧ state.pos < after.pos ∧
        (∀ part ∈ items, Part base after part) ∧ Accounts tokens state after items := by
  refine .get ?_
  split
  · refine .position (.bind (specifiers_meets sound allSound inv near true) ?_)
    rintro ⟨ty, storage⟩ first read
    have closer : tokens.last - first.pos ≤ budget := by
      have forward := read.ran.forward
      omega
    dsimp only
    split
    · refine .bind (typedefNames_meets allSound sound read.ran.inv closer read.has) ?_
      rintro _ second ⟨ran, forward⟩
      have whole := read.ran.trans ran
      exact .pure ⟨whole.toMoved, Nat.lt_of_le_of_lt read.ran.forward forward, by simp,
        .none whole.signs⟩
    split
    · exact .failAt read.ran.inv.same
    · refine .bind (declaration_meets allSound sound read.ran.inv closer
        (read.ran.inFunction inside) read.has) ?_
      intro id second declared
      have whole := declared.behind read.ran
      refine .pure ⟨whole.ran, whole.forward, ?_, whole.accounts⟩
      intro part member
      obtain rfl := List.mem_singleton.mp member
      exact whole.part
  · refine .bind (stmt_meets allSound sound inv near inside) ?_
    intro id first read
    refine .pure ⟨read.ran, read.forward, ?_, read.accounts⟩
    intro part member
    obtain rfl := List.mem_singleton.mp member
    exact read.part

/-- A block is read in a scope of its own. -/
theorem block_meets (inv : Inv tokens base state)
    (near : tokens.last - state.pos ≤ budget) (inside : InFunction state) :
    Meets tokens (block again) state (BlockRead tokens base state) := by
  refine .position (.withScope ?_)
  have entered := inv.enter
  have inBlock := inside.enter
  refine Meets.bind (show Meets tokens _ _ fun (body : List NodeId) after =>
      Moved tokens base { state with scopes := state.scopes.enter } after ∧
        state.pos < after.pos ∧ (∀ part ∈ body, Part base after part) ∧
        Accounts tokens state after body from ?_) ?_
  · refine .iterate (fun body after =>
        Moved tokens base { state with scopes := state.scopes.enter } after ∧
          (∀ part ∈ body, Part base after part) ∧ Accounts tokens state after body)
      (fun _ current => tokens.last - current.pos) entered.same
      ⟨.refl entered, by simp, .none rfl⟩ (by omega) ?_
    rintro body current ⟨ran, parts, accounts⟩
    refine .accept sound ran.inv.same ?_ ?_
    · intro _ before
      have stepped := Ran.next ran.inv before
      refine .pure ⟨ran.trans stepped.toMoved, Nat.lt_succ_of_le ran.forward, ?_,
        accounts.onward stepped⟩
      exact fun part member => stepped.part (parts part member)
    intro _
    refine .get ?_
    split
    · exact .failHere ran.inv.same
    · have closer : tokens.last - current.pos ≤ budget := by
        have forward : state.pos ≤ current.pos := ran.forward
        omega
      refine .bind (blockItem_meets allSound sound ran.inv closer
        (ran.inFunction inBlock)) ?_
      rintro items after ⟨further, forward, added, accounted⟩
      refine .pure ⟨⟨ran.trans further, ?_, accounts.append accounted further.extended⟩,
        ?_⟩
      · intro part member
        rcases List.mem_append.mp member with earlier | last
        · exact further.part (parts part earlier)
        · exact added part last
      · have bounded := further.inv.cursor
        omega
  · rintro body after ⟨ran, forward, parts, accounts⟩
    refine (newPlain_meets ran.inv (.block body) rfl rfl (by simp)
      (by simp [NodeKind.operands]) parts (state.pos - 1)).weaken ?_
    intro id last new
    have read := new.statementRead rfl rfl ran forward accounts
    obtain ⟨ty, node⟩ := new
    obtain ⟨entry, found, kind, _⟩ := node.node
    exact ⟨read.leave, Nat.le_trans ran.extended.size_le node.fresh, entry,
      body, found, kind⟩

end Blocks

end Grammar
end MiniC
