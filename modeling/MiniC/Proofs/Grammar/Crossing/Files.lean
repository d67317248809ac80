import MiniC.Proofs.Grammar.Crossing.Statements

/-!
# Files that cross

What the parser comes to call from the place of an occurrence carries over to what called
it: a production crosses the place if the one does that it comes to call, and so does the
whole file.
-/

namespace MiniC
namespace Grammar

variable {x : Crossing} {state middle after behind : State}
    {depth more : Nat} {ready : Prop}

/-- A production crosses the place if it comes to call one that does. -/
theorem Comes.crosses {target : Productions -> Parser NodeId} {deep : Nat} {there : State}
    {production : Productions -> Parser NodeId}
    (comes : Comes target deep there production depth state)
    (reaches : ∀ more, x.Crosses True there (target (productions deep))
      (target (productions more))) (more : Nat) :
    x.Crosses True state (production (productions depth))
      (production (productions more)) := by
  induction comes generalizing more with
  | here => exact reaches more
  | expr _ hypothesis | assign _ hypothesis | cast _ hypothesis | unary _ hypothesis
  | stmt _ hypothesis | block _ hypothesis =>
      cases more with
      | zero => exact (hypothesis 0).gives_up
      | succ more => exact hypothesis more
  | commaLeft _ hypothesis => exact .commaLeft (hypothesis more)
  | commaRight left comma _ hypothesis => exact .commaRight left comma (hypothesis more)
  | assignLeft _ hypothesis => exact .assignLeft (hypothesis more)
  | assignRight left equals _ hypothesis =>
      exact .assignRight left equals (hypothesis more)
  | firstOperand low high _ hypothesis => exact .firstOperand low high (hypothesis more)
  | laterOperand low high first rounds known operator _ hypothesis =>
      exact .laterOperand low high first rounds known operator (hypothesis more)
  | converted opens typed read closes _ hypothesis =>
      exact .converted opens typed read closes (hypothesis more)
  | unconverted untyped _ hypothesis => exact .unconverted untyped (hypothesis more)
  | operated known operator _ hypothesis =>
      exact .operated known operator (hypothesis more)
  | unoperated other _ hypothesis => exact .unoperated other (hypothesis more)
  | trailed _ hypothesis => exact .trailed (hypothesis more)
  | index head rounds bracket _ hypothesis =>
      exact .index head rounds bracket (hypothesis more)
  | body opens brace _ hypothesis => exact .body opens brace (hypothesis more)
  | parenthesised opens other _ hypothesis =>
      exact .parenthesised opens other (hypothesis more)
  | sizeof word untyped _ hypothesis => exact .sizeof word untyped (hypothesis more)
  | argument calls head rounds open_ separated _ hypothesis =>
      exact .argument calls head rounds open_ separated (hypothesis more)
  | returned word open_ _ hypothesis => exact .returned word open_ (hypothesis more)
  | condition word opens _ hypothesis => exact .inCondition word opens (hypothesis more)
  | branch word head _ hypothesis => exact .branch word head (hypothesis more)
  | otherwise word head first also _ hypothesis =>
      exact .otherwise word head first also (hypothesis more)
  | forInit word opens untyped _ hypothesis =>
      exact .forFirst word opens (.forInit untyped (hypothesis more))
  | forVariable word opens typed specified declares _ hypothesis =>
      exact .forFirst word opens (.forVariable typed specified declares (hypothesis more))
  | forCond word opens first open_ _ hypothesis =>
      exact .forCond word opens first open_ (hypothesis more)
  | forStep word opens first second open_ _ hypothesis =>
      exact .forStep word opens first second open_ (hypothesis more)
  | forBody word opens first second third _ hypothesis =>
      exact .forBody word opens first second third (hypothesis more)
  | labelled label head _ hypothesis => exact .labelled label head (hypothesis more)
  | braced brace _ hypothesis => exact .braced brace (hypothesis more)
  | unworded other unlabelled _ hypothesis =>
      exact .unworded other unlabelled (hypothesis more)
  | value open_ _ hypothesis => exact .value open_ (hypothesis more)
  | item rounds open_ further untyped _ hypothesis =>
      exact .items rounds open_ further (.item untyped (hypothesis more))
  | labelledItem rounds label head _ hypothesis =>
      have identifier := (Bool.and_eq_true_iff.mp label).1
      have further := kind_ne_eof_of_isIdentifier identifier
      exact .items rounds (State.isIdentifier_not_sees identifier _)
        (by unfold Token.isEof; cases kind : State.current _ |>.kind <;> simp_all)
        (.labelledItem label head (hypothesis more))
  | declared rounds open_ further typed specified automatic declares _ hypothesis =>
      exact .items rounds open_ further
        (.declared typed specified automatic declares (hypothesis more))

/-- What makes a function of its variables and its body. -/
def resolving (parts : List SymbolId × NodeId) : Parser Function := do
  let function ← finishFunction
  checkGotos function
  return ⟨parts.1, function.locals, some parts.2, 0⟩

namespace Crossing.Crosses

/-! ## Functions -/

/-- A body that crosses the place, behind what stands in front of it. -/
theorem resolvedBody {result : TyId} {params : List Param}
    (named : Named x.behind.tokens params)
    (settled : ready -> x.Settles (result, params))
    (opens : bodyHead result params state = .ok () middle)
    (inner : x.Crosses True middle (Grammar.block (productions depth))
      (Grammar.block (productions more))) :
    x.Crosses ready state (Grammar.resolvedBody (productions depth) result params)
        (Grammar.resolvedBody (productions more) (carry x.behind.names result)
          (carry x.behind.names params)) ∧
      (state.Within x.behind.tokens -> state.pos < x.start) := by
  obtain ⟨_, _, enters, rest⟩ := bind_ok opens
  cases enters
  obtain ⟨symbols, declaredAt, declares, opening⟩ := bind_ok rest
  have brace := sees_of_expect opening
  cases (expect_run brace).symm.trans opening
  have result_ (holds : ready) names (fixes : x.Fixes names) :
      carry names result = carry x.behind.names result :=
    congrArg Prod.fst (settled holds names fixes)
  have params_ (holds : ready) names (fixes : x.Fixes names) :
      carry names params = carry x.behind.names params :=
    congrArg Prod.snd (settled holds names fixes)
  have body : x.Crosses ready { state with function := some ⟨result, [], [], []⟩ }
      (functionBody (productions depth) params)
      (functionBody (productions more) (carry x.behind.names params)) :=
    .withScope <| .blind (fun names => (carry names params).mapM declareParameter)
      (fun _ _ => .mapM fun param member => .declareParameter id (named param member))
      (fun holds names fixes => by rw [params_ holds names fixes]) declares <|
        .expect brace <| (inner.mono fun _ => trivial).lead .blind fun ⟨_, symbols⟩ _ =>
          .pure id trivial
  have resolved : x.Crosses ready { state with function := some ⟨result, [], [], []⟩ }
      (functionBody (productions depth) params >>= resolving)
      (functionBody (productions more) (carry x.behind.names params) >>= resolving) :=
    body.lead .blind fun _ _ => .bind (.finishFunction x.braced) fun _ =>
      .bind (.checkGotos _) fun _ => .pure_of_eq id trivial (by simp [carry])
  have entering names (fixes : x.Fixes names) : Twins (x.before names fixes)
      False 0 .blind
      (modify fun state => { state with function := some ⟨result, [], [], []⟩ })
      (modify fun state => { state with
        function := some ⟨carry names result, [], [], []⟩ }) :=
    .modify id (fun _ => ⟨rfl, rfl, rfl, rfl, List.nil_subset _⟩)
      fun _ _ linked => ⟨rfl, rfl, rfl, rfl, linked.scopes, rfl⟩
  refine ⟨.blind _ entering
    (fun holds names fixes => by rw [result_ holds names fixes]) rfl ?_,
    fun within => ?_⟩
  · exact resolved.mono And.left
  · have enteredAdded := (added_before (entering _ x.fixed) within rfl).1
    have inside : State.Within x.behind.tokens
        { state with
          function := some ⟨result, [], [], []⟩
          scopes := state.scopes.enter } :=
      ⟨within.same, within.cursor, within.types⟩
    have declaredAdded := (added_fixed (Twins.mapM
      fun param member => .declareParameter id (named param member)) inside declares).1
    exact Nat.lt_of_le_of_lt (declaredAdded.forward)
      (inner.before (kind_ne_eof_of_isSymbol brace) declaredAdded.within)

/-- A definition whose body crosses the place, behind its declarator. -/
theorem function {declared : Declarator} {storage : Storage} {result : TyId}
    {params : List Param}
    (named : x.behind.Names declared) (settled : ready -> x.Settles declared)
    (head : functionHead declared storage state = .ok (result, params) middle)
    (defined : middle.sees ";" = false)
    (opens : bodyHead result params middle = .ok () after)
    (inner : x.Crosses True after (Grammar.block (productions depth))
      (Grammar.block (productions more))) :
    x.Crosses ready state (Grammar.function (productions depth) declared storage)
        (Grammar.function (productions more) (carry x.behind.names declared) storage) ∧
      (state.Within x.behind.tokens -> state.pos < x.start) := by
  obtain ⟨tok, namedAt, requires, rest⟩ := bind_ok head
  obtain ⟨⟨returned, taken⟩, signedAt, signs, rest⟩ := bind_ok rest
  obtain ⟨_, _, reads, rest⟩ := bind_ok rest
  cases reads
  obtain ⟨id_, enteredAt, enters, rest⟩ := bind_ok rest
  cases rest
  have requiring names (fixes : x.Fixes names) : Twins (x.before names fixes)
      False 0 .blind declared.requireName (carry names declared).requireName :=
    (Twins.requireName (w := x.before names fixes) named).weaken
      ⟨fun _ => id, fun _ => id, fun _ _ => trivial⟩
  have signing names (fixes : x.Fixes names) : Twins (x.before names fixes) False 0 .blind
      (signature declared.ty tok)
      (signature (carry names declared.ty) (carry x.behind.names tok)) :=
    (Twins.signature (w := x.before names fixes) _ _ _).weaken
      ⟨fun _ => id, fun _ => id, fun _ _ => trivial⟩
  have type_ (holds : ready) names (fixes : x.Fixes names) :
      carry names declared.ty = carry x.behind.names declared.ty :=
    congrArg Declarator.ty (settled holds names fixes)
  suffices reads : state.Within x.behind.tokens ->
      x.Crosses ready state (Grammar.function (productions depth) declared storage)
        (Grammar.function (productions more) (carry x.behind.names declared) storage) ∧
      state.pos < x.start from
    ⟨.of_within fun within => (reads within).1, fun within => (reads within).2⟩
  intro within
  obtain ⟨requiredAdded, identifier⟩ := added_fixed (.requireName named) within requires
  obtain ⟨signedAdded, params_⟩ :=
    added_fixed (.signature declared.ty tok tok) requiredAdded.within signs
  have undotted : Undotted (signedAt.token tok).text := by
    rw [State.token, signedAdded.within.same]
    exact x.behind.sound.undotted identifier
  obtain ⟨body, near⟩ := @resolvedBody _ _ _ _ more
    ((ready ∧ x.Settles (result, params)) ∧ x.Settles id_) _ _ params_
    (fun holds => holds.1.2) opens inner
  have enteredAdded := (added_fixed (.newFunction
    id undotted declared.ty storage.isStatic) signedAdded.within enters).1
  have defines : x.Crosses (ready ∧ x.Settles (result, params)) signedAt
      (do
        let id ← newFunction (signedAt.token tok).text declared.ty storage.isStatic
        unless ← accept ";" do
          functionDefinition (productions depth) id result params tok)
      (do
        let id ← newFunction (signedAt.token tok).text (carry x.behind.names declared.ty)
          storage.isStatic
        unless ← accept ";" do
          functionDefinition (productions more) id (carry x.behind.names result)
            (carry x.behind.names params) (carry x.behind.names tok)) := by
    refine .blind (fun names => newFunction _ (carry names declared.ty) _)
      (fun names fixes => .newFunction id undotted declared.ty storage.isStatic)
      (fun holds names fixes => by rw [type_ holds.1 names fixes]) enters ?_
    refine .accept_no defined (by decide) ?_
    rw [functionDefinition_eq_define, functionDefinition_eq_define]
    exact body.first fun _ function _ _ linked =>
      defineFunction_linked tok _ function linked x.braced
  refine ⟨.blind (fun names => (carry names declared).requireName) requiring
    (fun holds names fixes => by rw [settled holds names fixes]) requires ?_,
    Nat.lt_of_le_of_lt (Nat.le_trans requiredAdded.forward
      (Nat.le_trans signedAdded.forward enteredAdded.forward)) (near enteredAdded.within)⟩
  refine .blind (fun names => signature (carry names declared.ty)
    (carry x.behind.names tok))
    signing (fun holds names fixes => by rw [type_ holds.1 names fixes]) signs ?_
  refine .swap (defines.mono fun holds => ⟨holds.1.1, holds.2⟩) rfl
    fun _ _ there tied => ?_
  have text : (there.token (carry x.behind.names tok)).text = _ :=
    tied.linked.text identifier
  rw [← text]
  rfl

/-! ## Files -/

/-- What has a signature is a function. -/
theorem isFunction_of_signature {ty : TyId} {tok : Nat} {signed : TyId × List Param}
    (run : signature ty tok state = .ok signed after) :
    ∃ entry, lookupTy ty state = .ok entry state ∧ entry.isFunction = true := by
  obtain ⟨⟨kind, size, align, declared⟩, found, known, rest⟩ := bind_ok run
  have stays : found = state := by
    cases answer : state.program.lookupTy ty with
    | ok entry =>
        have ran : lookupTy ty state = .ok entry state := query_eq_ok answer
        cases ran.symm.trans known
        rfl
    | error error =>
        have failed : lookupTy ty state = .error error state := query_eq_error answer
        cases failed.symm.trans known
  subst stays
  cases kind with
  | func result params => exact ⟨_, known, rfl⟩
  | _ => cases rest

/-- A declaration of the file scope in whose body the place is. -/
theorem unitRound (defines : Defines (productions depth) state after)
    (inner : x.Crosses True after (Grammar.block (productions depth))
      (Grammar.block (productions more))) :
    x.Crosses True state (Grammar.unitRound (productions depth) ())
        (Grammar.unitRound (productions more) ()) ∧
      (state.Within x.behind.tokens -> state.pos < x.start) := by
  obtain ⟨base, storage, declared, result, params, first, second, third,
    further, specified, untyped, open_, declares, head, defined, opens⟩ := defines
  have specifies names (fixes : x.Fixes names) : Twins (x.before names fixes)
      False 0 .peeking
      (specifiers (productions depth) true) (specifiers (productions more) true) :=
    .specifiers (before_twin names fixes depth more) true
  have declaring names (fixes : x.Fixes names) : Twins (x.before names fixes) False 0
      (.giving .peeking x.behind.Names) (declarator (productions depth) base)
      (declarator (productions more) (carry names base)) :=
    .declarator (before_twin names fixes depth more) base
  suffices reads : state.Within x.behind.tokens ->
      x.Crosses True state (Grammar.unitRound (productions depth) ())
        (Grammar.unitRound (productions more) ()) ∧ state.pos < x.start from
    ⟨.of_within fun within => (reads within).1, fun within => (reads within).2⟩
  intro within
  have specifiedAdded := (added_before (specifies _ x.fixed) within specified).1
  obtain ⟨declaredAdded, named⟩ :=
    added_before (declaring _ x.fixed) specifiedAdded.within declares
  obtain ⟨defines, near⟩ := @function _ _ _ _ _ more
    ((True ∧ x.Settles (base, storage)) ∧ x.Settles declared) _ _ _ _ named
    (fun holds => holds.2) head defined opens inner
  have declaredBefore := near declaredAdded.within
  have specifiedBefore := Nat.lt_of_le_of_lt declaredAdded.forward declaredBefore
  have before := Nat.lt_of_le_of_lt specifiedAdded.forward specifiedBefore
  obtain ⟨entry, known, isFunction⟩ : ∃ entry,
    lookupTy declared.ty second = .ok entry second ∧
      entry.isFunction = true := by
    obtain ⟨tok, namedAt, requires, rest⟩ := bind_ok head
    obtain ⟨signed, signedAt, signs, -⟩ := bind_ok rest
    have stays : namedAt = second := by
      obtain ⟨ty, name, start⟩ := declared
      cases name <;> cases requires
      rfl
    exact isFunction_of_signature (stays ▸ signs)
  refine ⟨.get_bind ?_ (if_neg (by simp [further])) fun _ ahead _ tied =>
    if_neg (by simp [tied.isEof_other ahead further]), before⟩
  refine @Crosses.lead _ _ _ _ _ _ _ (Grammar.fileDeclaration _) _ _ _ ?_ .blind
    fun _ _ => .pure id trivial
  refine .behind specifies specified (fun _ => .inl specifiedBefore) ?_
  have declared : x.Crosses (True ∧ x.Settles (base, storage)) first
      (do
        unless ← accept ";" do
          let declared ← declarator (productions depth) base
          if (← lookupTy declared.ty).isFunction then
            Grammar.function (productions depth) declared storage
          else
            globalVariables (productions depth) base declared storage)
      (do
        unless ← accept ";" do
          let declared ← declarator (productions more) (carry x.behind.names base)
          if (← lookupTy declared.ty).isFunction then
            Grammar.function (productions more) declared storage
          else
            globalVariables (productions more) (carry x.behind.names base) declared
              storage) := by
    refine .accept_no open_ (by decide) <|
      .behind_at (fun names => declarator (productions more) (carry names base)) declaring
        (fun holds names fixes => by
          rw [show carry names base = carry x.behind.names base from
            congrArg Prod.fst (holds.2 names fixes)]) declares
              (fun _ => .inl declaredBefore) <|
      .blind (fun names => lookupTy (carry names declared.ty))
        (fun _ _ => Twins.lookupTy _) (fun holds names fixes => by
          rw [show carry names declared.ty = carry x.behind.names declared.ty from
            congrArg Declarator.ty (holds.2 names fixes)]) known ?_
    exact .swap (defines.mono And.left) (congrFun (if_pos (by simp [isFunction])) _)
      fun _ _ _ _ => congrFun (if_pos (by simp [isFunction])) _
  exact declared.swap (congrFun (if_neg (by simp [untyped])) _)
    fun _ _ there _ => congrFun (if_neg (by simp [carry, untyped])) _

end Crossing.Crosses

/-- The states in front of both files go together. -/
theorem Crossing.tied_initial (x : Crossing) :
    x.Tied (.initial x.behind.tokens) (.initial x.behind.other) := fun names fixes => by
  have fixed : ∀ ty ∈ TypeTable.initial.entries, carry names ty = ty := by
    simp [TypeTable.initial, carry, TyKind.carried]
  exact
    { within := .initial _
      tokens := rfl
      cursor := Nat.zero_le _
      reached := Nat.le_refl _
      pos := rfl
      scopes := rfl
      function := rfl
      literals := rfl
      tables :=
        { renames :=
            { types :=
                { found := fun id ty found => by
                    obtain ⟨below, same⟩ := Array.getElem?_eq_some_iff.mp found
                    have own : carry names id = id := names.ty_primitive id below
                    change TypeTable.initial.get? (carry names id) = some (carry names ty)
                    rw [own, fixed ty (same ▸ Array.getElem_mem _)]
                    exact found
                  missing := False.elim }
              found := fun _ _ never => by cases never
              missing := False.elim
              symbols := Array.map_empty.symm
              globals := rfl }
          primitive := Nat.le_refl _
          ty_le := Nat.zero_le _
          tySize := rfl
          node_le := Nat.zero_le _
          nodeSize := rfl
          kept := False.elim }
      rests := fun _ => ⟨rfl, rfl, rfl, rfl, rfl⟩ }

/-- Where the parser comes to call a production that crosses the place, it crosses the
place with the whole file. -/
theorem Calls.crosses {target : Productions -> Parser NodeId} {deep : Nat} {there : State}
    (calls : Calls x.behind.tokens target deep there)
    (reaches : ∀ more, x.Crosses True there (target (productions deep))
      (target (productions more))) (more : Nat) :
    x.Crosses True (.initial x.behind.tokens)
      (unit (productions (x.behind.tokens.last + 1)))
      (unit (productions more)) := by
  obtain ⟨middle, body, rounds, defines, comes⟩ := calls
  obtain ⟨round, near⟩ := @Crossing.Crosses.unitRound _ _ _ _ more defines
    (comes.crosses reaches more)
  have before names (fixes : x.Fixes names) current : Twins (x.before names fixes) False 0
      (.round (fun _ => True) .peeking)
      (unitRound (productions (x.behind.tokens.last + 1)) current)
      (unitRound (productions more) current) :=
    .unitRound (x.before_twin names fixes _ _) id current
  exact @Crossing.Crosses.iterate _ _ _ _ _ _ _ _ False _ .peeking _ _ _ _
    (fun _ => unitRound (productions more)) before
    (fun current => .unitRound (x.behind_twin _ _) x.braced current) rounds
    (fun _ _ _ => rfl) (fun _ _ _ => rfl) (.inr fun within => .inl (near within))
    (round.mono fun _ => trivial)

/-- What the parser makes of the whole file is the same then. -/
theorem Calls.ends {target : Productions -> Parser NodeId} {deep : Nat} {there : State}
    (calls : Calls x.behind.tokens target deep there)
    (reaches : ∀ more, x.Crosses True there (target (productions deep))
      (target (productions more))) (more : Nat) :
    x.behind.Ends (unit (productions (x.behind.tokens.last + 1))
      (.initial x.behind.tokens)) (unit (productions more) (.initial x.behind.other)) :=
  (calls.crosses reaches more).ends trivial _ x.tied_initial

end Grammar
end MiniC
