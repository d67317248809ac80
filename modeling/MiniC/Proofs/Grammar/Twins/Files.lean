import MiniC.Proofs.Grammar.Twins.Statements

/-!
# Twins of source files

The declarations of a file make the same of a window that is not plain as at another
place.  So do the productions, however deep they may recur at the two places.
-/

namespace MiniC
namespace Grammar

variable {w : Window} {calm : Prop} {state there : State} {low : Nat}

/-- A function that has been entered stands in the table of symbols. -/
theorem symbol_of_enteredFunction {again : Productions}
    (own : again.Followed (.self w.sound) again)
    {name : String} (undotted : Undotted name) {ty result : TyId} {isStatic : Bool}
    {params : List Param} (named : Named w.tokens params) (within : state.Within w.tokens)
    {entered : SymbolId × Function} {after : State}
    (run : enteredFunction again name ty isStatic result params state =
      .ok entered after) :
    ∃ symbol, after.program.symbol? entered.1 = some symbol := by
  obtain ⟨id, first, entry, rest⟩ := bind_ok run
  obtain ⟨resolved, second, body, done⟩ := bind_ok rest
  cases done
  have entering : Follows (.self w.sound) state.pos .blind (newFunction name ty isStatic)
      (newFunction name ty isStatic) :=
    .newFunction undotted ty isStatic
  have firstThere := (entering state within (Nat.le_refl _)).added _ _ entry
  have bodyThere := (Follows.resolvedBody own result named first firstThere.within
    (Nat.zero_le _)).added _ _ body
  cases entry
  exact ⟨_, bodyThere.begins.symbols _ _ (Array.getElem?_push_size :
    (state.program.symbols.push ⟨name, ty, isStatic, .function ⟨[], [], none, 0⟩⟩)[
      state.program.symbols.size]? = _)⟩

/-- A function that is given its body stays where it is, and so do types and nodes. -/
theorem defineFunction_stays {tokens : TokenStream} (sound : tokens.Sound) {id : SymbolId}
    {symbol : Symbol} {tok : Nat} {function : Function} (within : state.Within tokens)
    (found : state.program.symbol? id = some symbol) {last : State}
    (run : defineFunction id tok function state = .ok () last) :
    last.pos = state.pos ∧
      last.program.types.entries.size = state.program.types.entries.size ∧
      last.program.nodes.size = state.program.nodes.size := by
  rcases defineFunction_cases (c := .self sound) tok function within found with
    ⟨program, ran, -, rekinds⟩ | ⟨error, end_, failed, -⟩
  · cases ran.symm.trans run
    exact ⟨rfl, congrArg (·.entries.size) rekinds.types,
      congrArg Array.size rekinds.nodes⟩
  · cases failed.symm.trans run

/-- A function is given its body and its frame at the other place as here. -/
theorem defineFunction_linked {id : SymbolId} (tok also : Nat) (function : Function)
    (linked : w.Linked state there) (braced : ¬ w.plain) :
    w.Ends (defineFunction id tok function state)
      (defineFunction id also (carry w.names function) there) := by
  have renames := linked.tables.exact.setSymbolKind id (.function function)
  obtain ⟨laysOut, fails⟩ := @Program.Alike.layoutFrame _ w.whole id _ _ renames
  let entered : State :=
    { state with program := state.program.setSymbolKind id (.function function) }
  let alsoEntered : State :=
    { there with
      program := there.program.setSymbolKind id (.function (carry w.names function)) }
  have run : defineFunction id tok function state = layoutFrame id tok entered := rfl
  have alsoRun : defineFunction id also (carry w.names function) there =
      layoutFrame id also alsoEntered := rfl
  rw [run, alsoRun]
  cases laid : Program.layoutFrame id entered.program with
  | ok _ program =>
      obtain ⟨reached, alsoLaid, after, types, nodes, alsoTypes, alsoNodes⟩ :=
        laysOut () program laid
      rw [layoutFrame_ok laid, @layoutFrame_ok alsoEntered _ _ _ alsoLaid]
      refine ⟨?_, fun _ _ _ never => by cases never⟩
      rintro _ _ ⟨⟩
      refine .inr ⟨_, rfl, ⟨linked.within.same, linked.within.cursor, ?_⟩, linked.tokens,
        linked.cursor, linked.reached, linked.pos, linked.scopes, linked.function,
        linked.literals, ⟨⟨⟨after.types.found, False.elim⟩, after.found, False.elim,
          after.symbols, after.globals⟩, ?_, ?_, ?_, ?_, ?_,
          fun plain => absurd plain braced⟩, fun plain => absurd plain braced⟩
      · change Furnished w.tokens program.types
        rw [types]
        exact linked.within.types
      · change _ ≤ program.types.entries.size
        rw [types]
        exact linked.tables.primitive
      · change _ ≤ program.types.entries.size
        rw [types]
        exact linked.tables.ty_le
      · change reached.types.entries.size + _ = program.types.entries.size + _
        rw [types, alsoTypes]
        exact linked.tables.tySize
      · change _ ≤ program.nodes.size
        rw [nodes]
        exact linked.tables.node_le
      · change reached.nodes.size + _ = program.nodes.size + _
        rw [nodes, alsoNodes]
        exact linked.tables.nodeSize
  | error reason program =>
      have failed : ∃ error last, layoutFrame id tok entered = .error error last := by
        cases reason with
        | sizeOverflow => exact ⟨_, _, layoutFrame_overflow laid⟩
        | fault reason => exact ⟨_, _, layoutFrame_fault laid⟩
      obtain ⟨error, end_, ended⟩ := failed
      rw [ended]
      refine ⟨fun _ _ never => (by cases never), fun whole _ _ _ _ => ?_⟩
      obtain ⟨why, reached, alsoLaid⟩ := fails whole reason program laid
      cases why with
      | sizeOverflow => exact ⟨_, _, @layoutFrame_overflow alsoEntered _ _ _ alsoLaid⟩
      | fault reason => exact ⟨_, _, @layoutFrame_fault alsoEntered _ _ _ _ alsoLaid⟩

namespace Twins

/-! ## Functions -/

/-- The parameters of a function are named by identifiers. -/
theorem signature (ty : TyId) (tok also : Nat) :
    Twins w calm low (.giving .blind fun signed => Named w.tokens signed.2)
      (Grammar.signature ty tok) (Grammar.signature (carry w.names ty) also) := by
  intro inside state there within reached
  refine @TwinsAt.blind _ _ _ _ _ _ _ _ _ _ _ _ _ (fun _ => True)
    (lookupTy ty inside state there within reached)
      fun entry after beyond run added _ => ?_
  have found := get?_of_lookupTy run
  have behind : low ≤ after.pos := Nat.le_trans reached added.forward
  obtain ⟨kind, size, align, declToken⟩ := entry
  cases kind with
  | func result params =>
      have named := within.types.named ty _ result params found rfl
      have declared : Twins w calm low
          (.giving .blind fun signed => Named w.tokens signed.2) (do
            if (← Grammar.lookupTy result).isAggregate then
              Grammar.failAt tok (.typing .returnsAggregate)
            if params.length > maxArguments then
              Grammar.failAt tok (.grammar .tooManyParameters)
            return (result, params))
          (do
            if (← Grammar.lookupTy (carry w.names result)).isAggregate then
              Grammar.failAt also (.typing .returnsAggregate)
            if (carry w.names params).length > maxArguments then
              Grammar.failAt also (.grammar .tooManyParameters)
            return (carry w.names result, carry w.names params)) :=
        .bind (.lookupTy result) fun _ => .first_if (by simp) (.failAt _ _ _ _) fun _ =>
          .first_if
            (by rw [show (carry w.names params).length =
              params.length from List.length_map _])
            (.failAt _ _ _ _) fun _ => .pure id named
      exact declared inside after beyond added.within behind
  | _ => exact Twins.failAt _ _ _ _ inside after beyond added.within behind

section

variable (braced : ¬ w.plain)

include braced

/-- A parameter becomes a local variable of the same name. -/
theorem declareParameter {param : Param}
    (named : ∀ tok, param.name = some tok -> (w.tokens.get tok).isIdentifier = true) :
    Twins w calm low .blind (Grammar.declareParameter param)
      (Grammar.declareParameter (carry w.names param)) := by
  obtain ⟨ty, name⟩ := param
  cases name with
  | none => exact .failHere _ _
  | some tok =>
      refine .bind (.lookupTy _) fun _ => .first_if (by simp) (.failAt _ _ _ _) fun _ =>
        .get_bind fun state there inside within reached => ?_
      refine (newLocal braced (state.token tok).text ty inside state there
        within reached).swap fun linked _ => ?_
      rw [linked.text (named tok rfl)]
      rfl

theorem finishFunction :
    Twins w calm low .blind Grammar.finishFunction Grammar.finishFunction := by
  refine .get_bind fun state there inside within reached => ?_
  cases known : state.function with
  | none =>
      refine .of_error within rfl fun linked _ _ => ?_
      rw [linked.function, known]
      exact ⟨_, _, rfl⟩
  | some function =>
      have added : Added w.tokens state { state with function := none } :=
        .of_program_eq within rfl rfl rfl rfl (List.nil_subset _)
      refine @TwinsAt.of_ok _ _ _ _ _ _ _ _ _ function
        { state with function := none } within rfl
        added trivial (fun never => never.elim) fun linked _ => ?_
      rw [linked.function, known]
      exact .inr ⟨{ there with function := none }, rfl, added.within, linked.tokens,
        linked.cursor, linked.reached, linked.pos, linked.scopes, rfl, linked.literals,
          linked.tables,
        fun plain => absurd plain braced⟩

omit braced in
/-- The names of the labels are carried along unchanged, so the same gotos are resolved. -/
theorem checkGotos (function : FunctionContext) :
    Twins w calm low .blind (Grammar.checkGotos function)
      (Grammar.checkGotos (carry w.names function)) := by
  obtain ⟨result, locals, labels, gotos⟩ := function
  unfold Grammar.checkGotos
  dsimp only
  induction gotos with
  | nil => exact .pure id trivial
  | cons jump rest hypothesis =>
      exact .bind (.ite Iff.rfl (.pure id trivial) (.failAt _ _ _ _)) fun _ => hypothesis

end

section

variable {again beside : Productions} (twin : again.Twin w False beside)
    (braced : ¬ w.plain)

include twin braced

theorem functionBody {params : List Param} (named : Named w.tokens params) :
    Twins w False low .closing (Grammar.functionBody again params)
      (Grammar.functionBody beside (carry w.names params)) :=
  fun inside => Twins.withScope braced
    (.bind (.mapM fun param member => .declareParameter braced (named param member))
      fun _ =>
      .close (.expect _) fun _ => .close (.block twin braced (Nat.lt_succ_of_le inside))
        fun _ => .pure id trivial) inside

theorem resolvedBody (result : TyId) {params : List Param}
    (named : Named w.tokens params) :
    Twins w False low .closing (Grammar.resolvedBody again result params)
      (Grammar.resolvedBody beside (carry w.names result) (carry w.names params)) :=
  .bind (.modify braced (fun _ => ⟨rfl, rfl, rfl, rfl, List.nil_subset _⟩)
    fun _ _ linked => ⟨rfl, rfl, rfl, rfl, linked.scopes, rfl⟩) fun _ =>
    .close (.functionBody twin braced named) fun _ =>
      .bind (.finishFunction braced) fun _ =>
      .bind (.checkGotos _) fun _ => .pure_of_eq id trivial (by simp [carry])

/-- A function definition, whose name stands at a token. -/
theorem definition {name : String} (undotted : Undotted name) (ty : TyId)
    (isStatic : Bool)
    (result : TyId) {params : List Param} (named : Named w.tokens params)
    (tok also : Nat) :
    Twins w False low .closing
      (enteredFunction again name ty isStatic result params >>= fun entered =>
        defineFunction entered.1 tok entered.2)
      (enteredFunction beside name (carry w.names ty) isStatic (carry w.names result)
        (carry w.names params) >>= fun entered =>
          defineFunction entered.1 also entered.2) := by
  intro inside state there within reached
  have entering : Twins w False low .closing
      (enteredFunction again name ty isStatic result params)
      (enteredFunction beside name (carry w.names ty) isStatic (carry w.names result)
        (carry w.names params)) :=
    .bind (.newFunction braced undotted ty isStatic) fun _ =>
      .close (.resolvedBody twin braced result named) fun _ => .pure id trivial
  refine .settle (.definition twin.own undotted ty isStatic result named tok within)
    (entering inside state there within reached) ?_ ?_
  · intro ⟨id, function⟩ after _ last entered run
    obtain ⟨symbol, found⟩ :=
      symbol_of_enteredFunction twin.own undotted named within entered
    have added := (entering inside state there within reached).own.added _ _ entered
    obtain ⟨pos, types, nodes⟩ := defineFunction_stays w.sound added.within found run
    exact ⟨pos, types, nodes, fun _ => trivial⟩
  · exact fun entered after beyond _ linked =>
      defineFunction_linked tok also entered.2 linked braced

/-- A function that is declared, and defined unless a semicolon follows. -/
theorem declaredFunction {name : String} (undotted : Undotted name) (ty : TyId)
    (isStatic : Bool) (result : TyId) {params : List Param}
    (named : Named w.tokens params) (tok also : Nat) :
    Twins w False low .closing
      (do
        let id ← Grammar.newFunction name ty isStatic
        unless ← Grammar.accept ";" do
          functionDefinition again id result params tok)
      (do
        let id ← Grammar.newFunction name (carry w.names ty) isStatic
        unless ← Grammar.accept ";" do
          functionDefinition beside id (carry w.names result)
            (carry w.names params) also) := by
  intro inside state there within reached
  by_cases here : state.sees ";" = true
  · refine @TwinsAt.blind _ _ _ _ _ _ _ _ _ _ _ _ _ (fun _ => True)
      (newFunction braced undotted ty isStatic inside state there within reached)
      fun id entered beyond run added _ => ?_
    have shown : entered.sees ";" = true := by
      cases run
      exact here
    exact .accept_seen added.within
      (Nat.le_trans inside (Nat.le_trans reached added.forward)) shown
      (.pure (fun never => never) trivial)
  · have other : state.sees ";" = false := by simpa using here
    exact .congr within (declared_run again other) <|
      .here (fun linked faces => declared_run beside
        ((faces.shown.sees linked _).trans other))
        (definition twin braced undotted ty isStatic result named tok also inside
          state there within reached)

/-- A function is a definition on both sides or a prototype on both sides. -/
theorem function {declared : Declarator} (named : w.Names declared) (storage : Storage) :
    Twins w False low .closing (Grammar.function again declared storage)
      (Grammar.function beside (carry w.names declared) storage) := by
  refine .bind_gives (.requireName named) fun tok identifier =>
    .bind_gives (.signature _ tok _) fun signed parameters =>
      .get_bind fun state there inside within reached => ?_
  have undotted : Undotted (state.token tok).text := by
    rw [State.token, within.same]
    exact w.sound.undotted identifier
  refine (declaredFunction twin braced undotted declared.ty storage.isStatic signed.1
    parameters tok
    (carry w.names tok) inside state there within reached).swap fun linked _ => ?_
  rw [linked.text identifier]
  rfl

/-! ## Declarations -/

omit twin in
theorem declareGlobal {declared : Declarator} (named : w.Names declared)
    (storage : Storage) :
    Twins w calm low .blind (Grammar.declareGlobal storage declared)
      (Grammar.declareGlobal storage (carry w.names declared)) := by
  refine .bind_gives (.requireName named) fun tok identifier =>
    .bind (.checkVariableTy _ tok _) fun _ => .get_bind
      fun state there inside within reached => ?_
  have undotted : Undotted (state.token tok).text := by
    rw [State.token, within.same]
    exact w.sound.undotted identifier
  have entering : Twins w calm low .blind
      (do let _ ← Grammar.newGlobal (state.token tok).text declared.ty storage.isStatic)
      (do
        let _ ← Grammar.newGlobal (state.token tok).text (carry w.names declared.ty)
          storage.isStatic) :=
    .bind (.newGlobal braced undotted _ _) fun _ => .pure id trivial
  refine (entering inside state there within reached).swap fun linked _ => ?_
  rw [linked.text identifier]
  rfl

theorem globalVariables (base : TyId) {first : Declarator} (named : w.Names first)
    (storage : Storage) :
    Twins w False low .closing (Grammar.globalVariables again base first storage)
      (Grammar.globalVariables beside (carry w.names base)
        (carry w.names first) storage) :=
  .iterate w.Names named fun _ named =>
    .bind (.declareGlobal braced named storage) fun _ =>
    .accept (fun _ => by decide) (.pure id trivial) <|
      .peek (.loose (.of_closing (.expect ","))) fun _ =>
        .peek_gives (.declarator twin base) fun _ named => .pure id named

/-- A declaration of a file ends at its semicolon or at its body on both sides. -/
theorem fileDeclaration :
    Twins w False low .closing (Grammar.fileDeclaration again)
      (Grammar.fileDeclaration beside) :=
  .peek (.specifiers twin true) fun _ => .ite Iff.rfl (.typedefNames twin braced _) <|
    .accept (fun _ => by decide) (.pure id trivial) <|
      .peek_gives (.declarator twin _) fun _ named =>
        .bind (.lookupTy _) fun _ => .ite (by simp) (.function twin braced named _)
          (.globalVariables twin braced _ named _)

theorem unitRound (current : Unit) :
    Twins w False low (.round (fun _ => True) .peeking) (Grammar.unitRound again current)
      (Grammar.unitRound beside current) := by
  refine .get_bind fun state there inside within reached => ?_
  refine .here (fun linked faces => by
    have same : there.current.isEof = state.current.isEof := by
      unfold Token.isEof
      rw [faces.shown.kind linked]
    rw [same]) ?_
  refine .ite Iff.rfl (fun _ => Twins.pure id trivial inside state there within reached)
    fun _ => ?_
  have more : Twins w False low (.round (fun _ => True) .peeking)
      (do Grammar.fileDeclaration again; return .again () : Parser (Round Unit Unit))
      (do Grammar.fileDeclaration beside; return .again ()) :=
    .peek (.loose (.of_closing (.fileDeclaration twin braced))) fun _ => .pure id trivial
  exact more inside state there within reached

end
end Twins

/-! ## All productions -/

/-- Parsers that may not be called at the other place follow any. -/
theorem Twins.endless {α : Type} [Carried α] {mode : Mode α} {parser : Parser α}
    (follows : Follows (.self w.sound) low mode parser parser) :
    Twins w calm low mode parser (MonadExcept.throw (.fault .endless)) :=
  fun _ state there within reached =>
    @TwinsAt.of_endless _ _ _ _ _ _ _ _ _ there (follows state within reached) rfl

/-- Productions are followed by productions of any depth. -/
theorem productions_twin [w.Closes calm] (depth more : Nat) :
    (productions depth).Twin w calm (productions more) := by
  have own (depth : Nat) :
      (productions depth).Followed (.self w.sound) (productions depth) :=
    productions_followed (c := .self w.sound) depth depth (Nat.le_refl _) fun _ => rfl
  induction depth generalizing more with
  | zero =>
      exact
        { own := own 0
          specifiers := fun _ _ => .exhausted
          declarator := fun _ _ => .exhausted
          suffix := fun _ _ => .exhausted
          expr := fun _ => .exhausted
          assign := fun _ => .exhausted
          cast := fun _ => .exhausted
          unary := fun _ => .exhausted
          stmt := fun _ _ => .exhausted
          block := fun _ _ _ => .exhausted }
  | succ depth hypothesis =>
      cases more with
      | zero =>
          have followed := own (depth + 1)
          exact
            { own := followed
              specifiers := fun _ allowed => Twins.endless (followed.specifiers _ allowed)
              declarator := fun _ ty => Twins.endless (followed.declarator _ ty)
              suffix := fun _ ty => Twins.endless (followed.suffix _ ty)
              expr := fun _ => Twins.endless (followed.expr _)
              assign := fun _ => Twins.endless (followed.assign _)
              cast := fun _ => Twins.endless (followed.cast _)
              unary := fun _ => Twins.endless (followed.unary _)
              stmt := fun _ _ => Twins.endless (followed.stmt _)
              block := fun _ _ _ => Twins.endless (followed.block _) }
      | succ more =>
          have twin := hypothesis more
          have strict := twin.strict
          exact
            { own := own (depth + 1)
              specifiers := fun _ allowed => .specifiers twin allowed
              declarator := fun _ ty => .declarator twin ty
              suffix := fun _ ty => .suffix twin ty
              expr := fun _ => .expr twin
              assign := fun _ => .assign twin
              cast := fun _ => .cast twin
              unary := fun _ => .unary twin
              stmt := fun braced _ => .stmt strict braced (strict.stmt braced)
              block := fun braced _ inside => .block strict braced inside }

/-- Statements are also followed up to an opening parenthesis. -/
theorem stmt_twin {mild : Prop} [w.Opens mild] (braced : ¬ w.plain)
    (depth more low : Nat) :
    Twins w mild low .passing (productions depth).stmt (productions more).stmt := by
  induction depth generalizing more low with
  | zero => exact .exhausted
  | succ depth hypothesis =>
      cases more with
      | zero =>
          have own := productions_followed (c := .self w.sound) (depth + 1) (depth + 1)
            (Nat.le_refl _) fun _ => rfl
          exact Twins.endless (own.stmt _)
      | succ more =>
          exact .stmt (productions_twin depth more) braced fun low => hypothesis more low

end Grammar
end MiniC
