import MiniC.Proofs.Grammar.Twins.Code

/-!
# Twins of statements

Statements stand in windows that are not plain, so that they are on the same lines at both
places.  A statement is followed as far as the window is shown.
-/

namespace MiniC
namespace Grammar

variable {w : Window} {state there : State} {low : Nat}

/-- The token in front of one that is placed. -/
theorem Window.Placed.before {later tok other : Nat} (placed : w.Placed later tok other)
    (inside : w.low < tok) (further : tok < later) :
    w.Placed later (tok - 1) (other - 1) := by
  intro reaches
  have shown (n : Nat) (before : w.low + n ≤ tok) : w.whole ∨ w.low + n < w.high :=
    reaches.imp_right (by omega)
  have own : tok = w.low + (tok - w.low) := by omega
  have earlier : tok - 1 = w.low + (tok - 1 - w.low) := by omega
  have last : w.names.token tok = w.base + (tok - w.low) := by
    conv_lhs => rw [own]
    exact w.places _ (shown _ (by omega))
  have first : w.names.token (tok - 1) = w.base + (tok - 1 - w.low) := by
    conv_lhs => rw [earlier]
    exact w.places _ (shown _ (by omega))
  have same : other - 1 = w.names.token (tok - 1) := by
    rw [(placed reaches).1, last, first]
    omega
  refine ⟨same, fun braced => ?_⟩
  rw [same, first, w.lines braced _ (shown _ (by omega)), ← earlier]

/-- A labelled statement behind its label. -/
def labelled (again : Productions) (tok : Nat) (label : String) : Parser NodeId := do
  expect ":"
  if (← get).definesLabel label then
    failAt tok (.naming (.duplicateLabel label))
  modifyFunction fun function =>
    { function with labels := function.labels ++ [label] }
  let body ← again.stmt
  newNode (.label label body) tok

/-- A labelled statement reads its label and goes on behind it. -/
theorem labelStmt_run (again : Productions) (tok : Nat)
    (here : state.current.isIdentifier = true) :
    labelStmt again tok state = labelled again tok state.current.text state.next := by
  unfold labelStmt
  rw [bind_run (identifier_run here)]
  rfl

/-- A parser that runs as another one from another state may go on as that one. -/
theorem bind_from {α β : Type} {one other : Parser α} {rest : α -> Parser β}
    (same : one state = other there) : (one >>= rest) state = (other >>= rest) there := by
  change EStateM.bind one rest state = EStateM.bind other rest there
  unfold EStateM.bind
  rw [same]

/-- Where a label stands, a statement is a labelled one. -/
theorem stmt_run_label (again : Productions) (label : state.startsLabel = true) :
    stmt again state = labelled again state.pos state.current.text state.next := by
  have identifier := (Bool.and_eq_true_iff.mp label).1
  have other (symbol : String) : state.sees symbol = false := by
    by_contra sees
    have seen : state.sees symbol = true := by simpa using sees
    cases identifier.symm.trans (Token.isIdentifier_eq_false seen)
  rw [← labelStmt_run again state.pos identifier]
  change (position >>= _) state = _
  rw [position_run, accept_else (other _), accept_else (other _), accept_else (other _),
    accept_else (other _), accept_else (other _), get_run, if_pos label]

/-- A label begins at the shown token on both sides or on none. -/
theorem Window.Shown.startsLabel (linked : w.Linked state there)
    (shown : w.Shown (state.pos + 1)) :
    there.startsLabel = state.startsLabel := by
  unfold State.startsLabel
  rw [(shown.mono (Nat.le_succ _)).isIdentifier linked, shown.seesAt linked]

/-- Where no label stands, none stands at the other place. -/
theorem Window.Faces.startsLabel {mild : Prop} [w.Opens mild]
    (linked : w.Linked state there)
    (faces : w.Faces mild (state.pos + 1)) (other : state.startsLabel = false) :
    there.startsLabel = false := by
  rcases faces with further | ⟨ready, stop⟩
  · exact (further.startsLabel linked).trans other
  · unfold State.startsLabel
    rw [linked.seesAt_open ready stop (by decide), Bool.and_false]

/-- A `return` statement behind its value. -/
def returning (tok : Nat) (value : NodeId) : Parser NodeId := do
  expect ";"
  match (← get).function with
  | none => newNode (.ret (some value)) tok
  | some function =>
      if (← lookupTy function.result).isVoid then
        newNode (.ret (some value)) tok
      else
        let converted ← newCast value function.result tok
        newNode (.ret (some converted)) tok

namespace Twins

variable {again beside : Productions} (twin : again.Twin w False beside)
    (braced : ¬ w.plain)

/-! ## Declarations of variables -/

section

include twin

include braced in
/-- An initialiser assigns to the variable that was declared before it. -/
theorem initialiser (symbol : SymbolId) (tok also : Nat) :
    Twins w False low .peeking (Grammar.initialiser again symbol tok)
      (Grammar.initialiser beside symbol also) :=
  .position_bind fun _ _ _ placed => .accept (fun _ => by decide)
    (.bind (.newNode (.inl rfl)) fun _ => .lead (.assign twin) fun _ =>
      .bind (.newAssign _ _ _ _) fun _ =>
        .bind (.newNode (.inr ((placed.level braced).mono (by omega)))) fun _ =>
          .pure id trivial)
    (.pure id trivial)

include braced in
/-- A local variable is entered under the same name on both sides. -/
theorem declareLocal (body : List NodeId) (declared : Declarator) {tok : Nat}
    (identifier : (w.tokens.get tok).isIdentifier = true) :
    Twins w False low .peeking (Grammar.declareLocal again body declared tok)
      (Grammar.declareLocal beside (carry w.names body) (carry w.names declared)
        (carry w.names tok)) := by
  refine .bind (.checkVariableTy _ _ _) fun _ =>
    .get_bind fun state there inside within reached => ?_
  have declaring : Twins w False low .peeking
      (do
        let symbol ← Grammar.newLocal (state.token tok).text declared.ty
        return body ++ (← Grammar.initialiser again symbol tok))
      (do
        let symbol ← Grammar.newLocal (state.token tok).text (carry w.names declared.ty)
        return carry w.names body ++
          (← Grammar.initialiser beside symbol (carry w.names tok))) :=
    .bind (.newLocal braced _ _) fun _ => .peek (.initialiser twin braced _ _ _) fun _ =>
      .pure_of_eq id trivial List.map_append.symm
  refine (declaring inside state there within reached).swap fun linked _ => ?_
  rw [linked.text identifier]
  rfl

include braced in
/-- A declaration ends at its semicolon on both sides. -/
theorem declaration (base : TyId) :
    Twins w False low .closing (Grammar.declaration again base)
      (Grammar.declaration beside (carry w.names base)) :=
  .position_bind fun _ _ _ placed => .close (.declaratorList twin
    (fun _ _ _ _ identifier => .declareLocal twin braced _ _ identifier) base) fun _ =>
      .newNode (.inr (placed.level braced))

include braced in
theorem typedefNames (base : TyId) :
    Twins w False low .closing (Grammar.typedefNames again base)
      (Grammar.typedefNames beside (carry w.names base)) := by
  refine .declaratorList twin (fun low result declared tok identifier => ?_) base
  refine .get_bind fun state there inside within reached => ?_
  have declaring : Twins w False low .peeking
      (Grammar.modifyScopes
        (·.declareVariable (state.token tok).text (.typedef declared.ty)))
      (Grammar.modifyScopes
        (·.declareVariable (state.token tok).text
          (.typedef (carry w.names declared.ty)))) :=
    .of_blind (.modifyScopes braced fun scopes =>
      (scopes.carry_declareVariable w.names _ (.typedef declared.ty)).symm)
  refine (declaring inside state there within reached).swap fun linked _ => ?_
  rw [linked.text identifier]
  rfl

/-! ## Statements -/

include braced in
theorem exprStmt :
    Twins w False low .closing (Grammar.exprStmt again) (Grammar.exprStmt beside) :=
  .position_bind fun _ _ _ placed =>
    .accept (fun _ => by decide) (.newNode (.inr (placed.level braced))) <|
      .lead (.expr twin) fun _ => .close (.expect ";") fun _ =>
        .newNode (.inr ((placed.level braced).mono (by omega)))

section

variable {tok also : Nat} (level : w.Level low tok also)

include level

omit twin in
/-- A `return` statement behind its value. -/
theorem returning (value : NodeId) :
    Twins w False low .closing (Grammar.returning tok value)
      (Grammar.returning also (carry w.names value)) := by
  have later : w.Level (low + 1) tok also := level.mono (by omega)
  refine .close (.expect ";") fun _ => .get_bind
    fun state there inside within reached => ?_
  have returned (function : Option FunctionContext) : Twins w False (low + 1) .blind
      (match function with
        | none => Grammar.newNode (.ret (some value)) tok
        | some function => do
            if (← Grammar.lookupTy function.result).isVoid then
              Grammar.newNode (.ret (some value)) tok
            else
              let converted ← Grammar.newCast value function.result tok
              Grammar.newNode (.ret (some converted)) tok)
      (match carry w.names function with
        | none => Grammar.newNode (.ret (some (carry w.names value))) also
        | some function => do
            if (← Grammar.lookupTy function.result).isVoid then
              Grammar.newNode (.ret (some (carry w.names value))) also
            else
              let converted ← Grammar.newCast (carry w.names value) function.result also
              Grammar.newNode (.ret (some converted)) also) := by
    cases function with
    | none => exact .newNode (.inr later)
    | some function =>
        exact .bind (.lookupTy _) fun _ => .ite (by simp) (.newNode (.inr later))
          (.bind (.newCast _ _ _ _) fun _ => .newNode (.inr later))
  refine (returned state.function inside state there within reached).swap
    fun linked _ => ?_
  rw [linked.function]

/-- A returned value is converted to the result of the function, which both sides carry. -/
theorem returnStmt :
    Twins w False low .closing (Grammar.returnStmt again tok)
      (Grammar.returnStmt beside also) :=
  .accept (fun _ => by decide) (.newNode (.inr (level.mono (by omega)))) <|
    .lead (twin.expr _) fun value => .returning (level.mono (by omega)) value

omit twin in
include braced in
theorem gotoStmt :
    Twins w False low .closing (Grammar.gotoStmt tok) (Grammar.gotoStmt also) :=
  .close_gives .identifier fun _ _ => .close (.expect ";") fun _ =>
    .bind (.modifyFunction braced (fun _ => rfl) fun _ => by simp [carry]) fun _ =>
        .newNode (.inr (level.mono (by omega)))

end

/-- The condition of a statement stands between two parentheses. -/
theorem condition (tok also : Nat) :
    Twins w False low .closing (Grammar.condition again tok)
      (Grammar.condition beside also) :=
  .close (.expect "(") fun _ => .lead (twin.expr _) fun _ =>
    .bind (.checkScalar _ _ _) fun _ => .close (.expect ")") fun _ => .pure id trivial

include braced in
/-- A loop begins with a declaration on both sides or with an expression on both sides. -/
theorem forInit :
    Twins w False low .closing (Grammar.forInit again) (Grammar.forInit beside) := by
  refine .get_bind fun state there inside within reached => ?_
  refine .here (fun linked faces => by
    have same : there.startsType there.pos = state.startsType state.pos :=
      @Window.Shown.startsType _ _ _ 0 linked faces.shown
    rw [same]) ?_
  refine .ite Iff.rfl (fun _ => ?_) fun _ => exprStmt twin braced inside state there
    within reached
  exact Twins.peek (.specifiers twin false)
    (fun _ => .declaration twin braced _) inside state there within reached

theorem forCond (tok also : Nat) :
    Twins w False low .closing (Grammar.forCond again tok)
      (Grammar.forCond beside also) :=
  .accept (fun _ => by decide) (.pure id trivial) <| .lead (twin.expr _) fun _ =>
    .bind (.checkScalar _ _ _) fun _ => .close (.expect ";") fun _ => .pure id trivial

theorem forStep :
    Twins w False low .closing (Grammar.forStep again) (Grammar.forStep beside) :=
  .accept False.elim (.pure id trivial) <| .lead (twin.expr _) fun _ =>
    .close (.expect ")") fun _ => .pure id trivial

/-! ### Statements that end with a statement

These look for `else` where they end, and find none at an opening parenthesis. -/

section

variable {mild : Prop} [w.Opens mild]
  (inner : ∀ low, Twins w mild low .passing again.stmt beside.stmt)

include braced inner

section

variable {tok also : Nat} (level : w.Level low tok also)

include level

omit braced in
theorem ifStmt :
    Twins w mild low .passing (Grammar.ifStmt again tok) (Grammar.ifStmt beside also) :=
  .close ((condition twin _ _).calmed fun _ => trivial) fun _ => .lead (inner _) fun _ =>
    .accept_mild (by decide)
      (.lead (inner _) fun _ => .of_blind (.newNode (.inr (level.mono (by omega)))))
      (.of_blind (.newNode (.inr (level.mono (by omega)))))

omit [w.Opens mild] in
theorem forStmt :
    Twins w mild low .passing (Grammar.forStmt again tok) (Grammar.forStmt beside also) :=
  .close (.expect "(") fun _ => .withScope braced <|
    .close ((forInit twin braced).calmed fun _ => trivial) fun _ =>
      .close ((forCond twin _ _).calmed fun _ => trivial) fun _ =>
        .close ((forStep twin).calmed fun _ => trivial) fun _ => .lead (inner _) fun _ =>
          .of_blind (.newNode (.inr (level.mono (by omega))))

omit braced [w.Opens mild] in
theorem whileStmt :
    Twins w mild low .passing (Grammar.whileStmt again tok)
      (Grammar.whileStmt beside also) :=
  .close ((condition twin _ _).calmed fun _ => trivial) fun _ => .lead (inner _) fun _ =>
    .of_blind (.newNode (.inr (level.mono (by omega))))

end

omit twin [w.Opens mild] in
/-- A labelled statement behind its label. -/
theorem labelled (label : String) {tok also : Nat} (level : w.Level low tok also) :
    Twins w mild low .passing (Grammar.labelled again tok label)
      (Grammar.labelled beside also label) := by
  refine .close (.expect ":") fun _ => .get_bind
    fun state there inside within reached => ?_
  have defined (function : Option FunctionContext) : Twins w mild (low + 1) .peeking
      (do
        if function.any fun function => function.labels.contains label then
          Grammar.failAt tok (.naming (.duplicateLabel label))
        Grammar.modifyFunction fun function =>
          { function with labels := function.labels ++ [label] }
        let body ← again.stmt
        Grammar.newNode (.label label body) tok)
      (do
        if (carry w.names function).any fun function =>
          function.labels.contains label then
          Grammar.failAt also (.naming (.duplicateLabel label))
        Grammar.modifyFunction fun function =>
          { function with labels := function.labels ++ [label] }
        let body ← beside.stmt
        Grammar.newNode (.label label body) also) :=
    .first_if (by cases function <;> exact Iff.rfl) (.failAt _ _ _ _) fun _ =>
      .bind (.modifyFunction braced (fun _ => rfl) fun _ => rfl) fun _ =>
        .lead (inner _) fun _ => .of_blind (.newNode (.inr (level.mono (by omega))))
  refine (defined state.function inside state there within reached).swap
    fun linked _ => ?_
  rw [← linked.function]
  rfl

/-- The first token decides which statement it is, on both sides alike. -/
theorem stmt : Twins w mild low .passing (Grammar.stmt again) (Grammar.stmt beside) := by
  refine .position_bind fun tok also _ placed => ?_
  have level := placed.level braced
  have always (value : NodeId) : (Mode.passing : Mode NodeId).passes value := trivial
  refine .accept_passing always
      (.loose (.of_closing ((returnStmt twin level).calmed fun _ => trivial))) <|
    .accept_passing always (.loose (.ifStmt twin inner level)) <|
    .accept_passing always (.loose (.forStmt twin braced inner level)) <|
    .accept_passing always (.loose (.whileStmt twin inner level)) <|
    .accept_passing always
      (.loose (.of_closing ((gotoStmt braced level).calmed fun _ => trivial))) ?_
  refine .get_bind fun state there inside within reached => ?_
  have inside_ := Nat.le_trans inside reached
  by_cases label : state.startsLabel = true
  · have identifier := (Bool.and_eq_true_iff.mp label).1
    rw [if_pos label]
    refine .behind_two within (kind_ne_eof_of_isIdentifier identifier)
      (Token.string?_of_isIdentifier identifier) (labelStmt_run again _ identifier)
      (fun linked shown => ?_) (labelled braced inner state.current.text level
        (Nat.le_succ_of_le inside) _ _
        (Window.within_next within (kind_ne_eof_of_isIdentifier identifier))
        (Nat.succ_le_succ reached))
    have here := shown.mono (Nat.le_succ _)
    rw [if_pos ((shown.startsLabel linked).trans label),
      labelStmt_run beside _ ((here.isIdentifier linked).trans identifier),
        here.text linked]
  · rw [if_neg label]
    refine .ahead (fun linked shown faces => ?_) <|
      .accept_passing always within inside_ (.loose (.of_closing
        ((twin.block braced _ (by omega)).calmed fun _ => trivial)))
        (Twins.of_closing ((exprStmt twin braced).calmed fun _ => trivial) inside
          state there within reached)
    rw [Window.Faces.startsLabel linked faces (by simpa using label)]
    rfl

/-! ## Blocks -/

omit inner in
theorem blockDeclaration :
    Twins w False low .closing (Grammar.blockDeclaration again)
      (Grammar.blockDeclaration beside) :=
  .position_bind fun _ _ _ _ => .peek (.specifiers twin true) fun _ => .ite Iff.rfl
    (.close (.typedefNames twin braced _) fun _ => .pure id trivial)
    (.ite Iff.rfl (.failAt _ _ _ _)
      (.close (.declaration twin braced _) fun _ => .pure id trivial))

/-- An item of a block is a declaration on both sides or a statement on both sides. -/
theorem blockItem :
    Twins w mild low .passing (Grammar.blockItem again) (Grammar.blockItem beside) := by
  refine .get_bind fun state there inside within reached => ?_
  have single : Twins w mild low .passing
      (do return [← Grammar.stmt again]) (do return [← Grammar.stmt beside]) :=
    .lead (.stmt twin braced inner) fun _ => .pure id trivial
  by_cases label : state.startsLabel = true
  · have typeless {known : State} (label : known.startsLabel = true) :
        ¬ (known.startsType known.pos && !known.startsLabel) = true := by simp [label]
    have identifier := (Bool.and_eq_true_iff.mp label).1
    have more := kind_ne_eof_of_isIdentifier identifier
    have run (productions : Productions) {known : State}
        (label : known.startsLabel = true) :
        (do return [← Grammar.stmt productions]) known =
          (do return [← Grammar.labelled productions known.pos
            known.current.text] : Parser _) known.next :=
      bind_from (stmt_run_label productions label)
    rw [if_neg (typeless label)]
    refine .of_linked (single inside state there within reached).own fun linked => ?_
    have level := (Window.Placed.cursor linked (Nat.lt_succ_self _)).level braced
    have named : Twins w mild (state.pos + 1) .passing
        (do return [← Grammar.labelled again state.pos state.current.text])
        (do return [← Grammar.labelled beside there.pos state.current.text]) :=
      .lead (.labelled braced inner _ level) fun _ => .pure id trivial
    refine .behind_two within more (Token.string?_of_isIdentifier identifier)
      (run again label)
      (fun _ shown => ?_) (named (Nat.le_succ_of_le (Nat.le_trans inside reached)) _ _
        (Window.within_next within more) (Nat.le_refl _))
    have alsoLabel := (shown.startsLabel linked).trans label
    rw [if_neg (typeless alsoLabel), run beside alsoLabel,
      (shown.mono (Nat.le_succ _)).text linked]
  · have unlabelled : state.startsLabel = false := by simpa using label
    rw [unlabelled]
    have item : TwinsAt w mild state there .passing
        (if state.startsType state.pos && !false then Grammar.blockDeclaration again
          else do return [← Grammar.stmt again])
        (if state.startsType state.pos && !false then Grammar.blockDeclaration beside
          else do return [← Grammar.stmt beside]) :=
      .ite Iff.rfl (fun _ => Twins.of_closing
        ((blockDeclaration twin braced).calmed fun _ => trivial) inside state there
          within reached)
        fun _ => single inside state there within reached
    refine item.ahead fun linked shown faces => ?_
    have same : there.startsType there.pos = state.startsType state.pos :=
      @Window.Shown.startsType _ _ _ 0 linked shown
    rw [same, Window.Faces.startsLabel linked faces unlabelled]

/-- One round of the loop over the items of a block. -/
theorem blockRound (body : List NodeId) :
    Twins w mild low (.eager (fun _ => True) .closing) (Grammar.blockRound again body)
      (Grammar.blockRound beside (carry w.names body)) := by
  refine .accept_passing (fun _ => trivial) (.pure id trivial) ?_
  refine .get_bind fun state there inside within reached => ?_
  refine .shown (fun _ => trivial) (fun linked shown => by
    have same : there.current.isEof = state.current.isEof := by
      unfold Token.isEof
      rw [shown.kind linked]
    rw [same]) ?_
  refine .ite Iff.rfl (fun _ => .of_errors within rfl rfl) fun _ => ?_
  have more : Twins w mild low (.eager (fun _ => True) .closing)
      (do return .again (body ++ (← Grammar.blockItem again)) :
        Parser (Round (List NodeId) (List NodeId)))
      (do return .again (carry w.names body ++ (← Grammar.blockItem beside))) :=
    .lead (.blockItem twin braced inner) fun _ =>
      .pure_of_eq id trivial (congrArg Round.again List.map_append.symm)
  exact more inside state there within reached

end

/-- The items of a block up to its closing brace. -/
theorem blockItems (braced : ¬ w.plain) :
    Twins w False low .closing (Grammar.blockItems again) (Grammar.blockItems beside) :=
  .iterate (fun _ => True) trivial fun body _ =>
    (blockRound twin braced (twin.stmt braced) body).weaken Mode.round_weaker_eager

/-- A block behind its opening brace. -/
theorem block (braced : ¬ w.plain) (inside : w.low < low) :
    Twins w False low .closing (Grammar.block again) (Grammar.block beside) :=
  .position_bind fun _ _ reached placed => .withScope braced <|
    .close (.blockItems twin braced) fun _ =>
    .newNode (.inr ((placed.before (by omega) (by omega)).level braced))

end
end Twins
end Grammar
end MiniC
