import MiniC.Proofs.Grammar.Beside.Code
import MiniC.Proofs.Token.Continuation

/-!
# Source files beside each other

A declaration at file scope ends in a semicolon or a closing brace, and nothing behind
that was looked at.  So a run over all declarations of a file is followed to its end,
whatever comes behind it in the other stream.

A function is entered before its body is parsed, and its frame is laid out behind the
body.  That changes the kinds of the function and of its locals, and of no other symbol.
-/

namespace MiniC

/-! ## Kinds of symbols -/

namespace Program

/-- Symbols may change their kinds if they are among the given ones. -/
structure Rekinds (changing : SymbolId -> Prop) (before after : Program) : Prop where
  types : after.types = before.types
  nodes : after.nodes = before.nodes
  globals : after.globals = before.globals
  symbols : ∀ id symbol, before.symbol? id = some symbol ->
    ∃ now, after.symbol? id = some now ∧ now.name = symbol.name ∧
      (¬ changing id -> now = symbol)

namespace Rekinds

variable {changing : SymbolId -> Prop} {before middle after : Program}

theorem refl (program : Program) : program.Rekinds changing program :=
  ⟨rfl, rfl, rfl, fun _ symbol found => ⟨symbol, found, rfl, fun _ => rfl⟩⟩

/-- Two changes of the kinds of symbols are one. -/
theorem trans (first : before.Rekinds changing middle)
    (second : middle.Rekinds changing after) :
    before.Rekinds changing after where
  types := second.types.trans first.types
  nodes := second.nodes.trans first.nodes
  globals := second.globals.trans first.globals
  symbols := by
    intro id symbol found
    obtain ⟨between, there, name, same⟩ := first.symbols id symbol found
    obtain ⟨now, here, sameName, kept⟩ := second.symbols id between there
    exact ⟨now, here, sameName.trans name, fun apart => (kept apart).trans (same apart)⟩

/-- The kind of one symbol is changed. -/
theorem setSymbolKind {id : SymbolId} (changes : changing id) (program : Program)
    (kind : SymbolKind) : program.Rekinds changing (program.setSymbolKind id kind) where
  types := rfl
  nodes := rfl
  globals := rfl
  symbols := by
    intro other symbol found
    change program.symbols[other.index]? = some symbol at found
    by_cases same : id = other
    · subst same
      refine ⟨{ symbol with kind := kind }, ?_, rfl, fun apart => absurd changes apart⟩
      change (program.symbols.modify id.index _)[id.index]? = _
      rw [Array.getElem?_modify, if_pos rfl, found]
      rfl
    · have apart : id.index ≠ other.index :=
        fun index => same (congrArg SymbolId.mk index)
      refine ⟨symbol, ?_, rfl, fun _ => rfl⟩
      change (program.symbols.modify id.index _)[other.index]? = _
      rw [Array.getElem?_modify, if_neg apart, found]

/-- Placing the local variables changes their kinds. -/
theorem placeLocals {locals : List SymbolId} {offset last : Int}
    (changes : ∀ id ∈ locals, changing id)
    (run : Program.placeLocals locals offset before = .ok last after) :
    before.Rekinds changing after := by
  induction locals generalizing offset before with
  | nil =>
      cases run
      exact .refl _
  | cons id rest hypothesis =>
      obtain ⟨ty, first, typed, behindTy⟩ := Grammar.bind_ok run
      obtain rfl := Grammar.symbolTy_ok typed
      obtain ⟨stop, second, added, behindStop⟩ := Grammar.bind_ok behindTy
      obtain rfl := Grammar.sized_ok added
      obtain ⟨place, third, rounded, behindPlace⟩ := Grammar.bind_ok behindStop
      obtain rfl := Grammar.aligned_ok rounded
      obtain ⟨_, _, ⟨⟩, others⟩ := Grammar.bind_ok behindPlace
      exact (setSymbolKind (changes id List.mem_cons_self) _ _).trans
        (hypothesis (fun other member => changes other (List.mem_cons_of_mem id member))
          others)

/-- The layout of a frame changes the function and its locals. -/
theorem layoutFrame {id : SymbolId} {symbol : Symbol} {function : Function}
    (found : before.symbol? id = some symbol)
    (kind : symbol.kind = .function function)
    (own : changing id)
    (changes : ∀ other ∈ function.locals, changing other)
    (run : Program.layoutFrame id before = .ok () after) :
    before.Rekinds changing after := by
  obtain ⟨entry, _, read, rest⟩ := Grammar.bind_ok run
  obtain ⟨there, rfl⟩ := Grammar.symbol_ok read
  obtain rfl := Option.some.inj (found.symm.trans there)
  rw [kind] at rest
  obtain ⟨last, placed, places, behindLocals⟩ := Grammar.bind_ok rest
  have laid :=
    placeLocals (fun other member => changes other (List.mem_reverse.mp member)) places
  obtain ⟨size, sized, rounded, behindSize⟩ := Grammar.bind_ok behindLocals
  obtain rfl := Grammar.sized_ok rounded
  obtain ⟨known, middle, again, setting⟩ := Grammar.bind_ok behindSize
  obtain ⟨-, rfl⟩ := Grammar.symbol_ok again
  cases form : known.kind with
  | function definition =>
      rw [form] at setting
      cases setting
      exact laid.trans (setSymbolKind own _ _)
  | _ =>
      rw [form] at setting
      cases setting
      exact laid

end Rekinds
end Program

namespace Grammar

variable {c : Comparison} {tokens : TokenStream} {state : State}
    {low : Nat} {α β σ : Type}

/-! ## Functions -/

/-- The parameters, the locals and the body of a function. -/
def resolvedBody (again : Productions) (result : TyId) (params : List Param) :
    Parser Function := do
  modify fun state => { state with function := some ⟨result, [], [], []⟩ }
  let (symbols, body) ← functionBody again params
  let function ← finishFunction
  checkGotos function
  return ⟨symbols, function.locals, some body, 0⟩

/-- A function is given its body and its frame. -/
def defineFunction (id : SymbolId) (tok : Nat) (function : Function) : Parser Unit := do
  modify fun state =>
    { state with program := state.program.setSymbolKind id (.function function) }
  layoutFrame id tok

/-- A definition is a body whose labels are resolved, which is then recorded. -/
theorem functionDefinition_eq_define (again : Productions) (id : SymbolId) (result : TyId)
    (params : List Param) (tok : Nat) :
    functionDefinition again id result params tok =
      resolvedBody again result params >>= defineFunction id tok := by
  simp only [functionDefinition, resolvedBody, defineFunction, bind_assoc, pure_bind]

theorem get?_of_lookupTy {id : TyId} {ty : Ty} {after : State}
    (run : lookupTy id state = .ok ty after) :
    state.program.types.get? id = some ty := by
  cases known : state.program.lookupTy id with
  | ok found =>
      have ran : lookupTy id state = .ok found state := query_eq_ok known
      cases ran.symm.trans run
      exact Program.get?_of_lookupTy known
  | error error =>
      have failed : lookupTy id state = .error error state := query_eq_error known
      cases failed.symm.trans run

namespace Follows

/-- The parameters of a function are named by identifiers. -/
theorem signature (ty : TyId) (tok : Nat) :
    Follows c low (.giving .blind fun signed => Named c.tokens signed.2)
      (Grammar.signature ty tok) (Grammar.signature ty tok) := by
  intro state within reached
  refine @FollowsAt.blind _ _ _ _ _ _ _ _ (fun _ =>
    True) _ (lookupTy ty state within reached)
    fun entry after run added _ => ?_
  have found := get?_of_lookupTy run
  split
  · rename_i result params kind
    have named := within.types.named ty entry result params found kind
    have declared : Follows c 0 (.giving .blind fun signed => Named c.tokens signed.2)
        (do
          if (← Grammar.lookupTy result).isAggregate then
            Grammar.failAt tok (.typing .returnsAggregate)
          if params.length > maxArguments then
            Grammar.failAt tok (.grammar .tooManyParameters)
          return (result, params))
        (do
          if (← Grammar.lookupTy result).isAggregate then
            Grammar.failAt tok (.typing .returnsAggregate)
          if params.length > maxArguments then
            Grammar.failAt tok (.grammar .tooManyParameters)
          return (result, params)) :=
      .bind (.lookupTy result) fun _ => .first_if (.failAt _ _) fun _ =>
        .first_if (.failAt _ _) fun _ => .pure id named
    exact declared after added.within (Nat.zero_le _)
  · exact failAt _ _ after added.within (Nat.zero_le _)

/-- A parameter is declared by the token of its name. -/
theorem declareParameter {param : Param} (named : c.NamesParam param) :
    Follows c low .blind (Grammar.declareParameter param)
      (Grammar.declareParameter param) := by
  unfold Grammar.declareParameter
  cases known : param.name with
  | none => exact failHere _
  | some tok =>
      refine .bind (.lookupTy _) fun _ => .first_if (.failAt _ _) fun _ =>
        .get_bind fun state within reached => ?_
      rw [Comparison.Shown.token
        (.inr (Comparison.lt_last_of_identifier (named tok known)))
        within.same, Token.relocate_text]
      exact newLocal _ _ state within reached

/-- The labels and variables of a function are the same. -/
theorem finishFunction :
    Follows c low .blind Grammar.finishFunction Grammar.finishFunction := by
  refine .get_bind fun state within reached => ?_
  rw [Comparison.view_function]
  cases state.function with
  | none => exact Follows.throw rfl state within reached
  | some function =>
      exact .of_ok rfl (.of_program_eq within rfl rfl rfl rfl (List.nil_subset _)) trivial
        (fun never => never.elim) fun _ => rfl

/-- A label is missing in both streams or in neither. -/
theorem checkGotos (function : FunctionContext) :
    Follows c low .blind (Grammar.checkGotos function) (Grammar.checkGotos function) := by
  unfold Grammar.checkGotos
  induction function.gotos with
  | nil => exact .pure id trivial
  | cons jump rest hypothesis =>
      exact .bind (.ite (.pure id trivial) (.failAt _ _)) fun _ => hypothesis

/-- The body of a function is closed by its brace. -/
theorem functionBody {again beside : Productions} (followed : again.Followed c beside)
    {params : List Param} (named : Named c.tokens params) :
    Follows c low .closing (Grammar.functionBody again params)
      (Grammar.functionBody beside params) :=
  .withScope <| .bind (.mapM fun param member => .declareParameter (named param member))
    fun _ =>
    .close (.expect _) fun _ => .close (.block followed) fun _ => .pure id trivial

/-- The body of a function and its labels are read alike. -/
theorem resolvedBody {again beside : Productions} (followed : again.Followed c beside)
    (result : TyId) {params : List Param} (named : Named c.tokens params) :
    Follows c low .closing (Grammar.resolvedBody again result params)
      (Grammar.resolvedBody beside result params) :=
  .bind (.modify (fun _ => ⟨rfl, rfl, rfl, rfl, List.nil_subset _⟩) fun _ => rfl) fun _ =>
    .close (.functionBody followed named) fun _ => .bind .finishFunction fun _ =>
      .bind (.checkGotos _) fun _ => .pure id trivial

end Follows

/-- The check of labels changes nothing. -/
theorem checkGotos_ok {function : FunctionContext} {after : State}
    (run : checkGotos function state = .ok () after) : after = state := by
  unfold checkGotos at run
  generalize function.gotos = jumps at run
  induction jumps with
  | nil =>
      cases run
      rfl
  | cons jump rest hypothesis =>
      obtain ⟨_, middle, one, others⟩ := bind_ok run
      dsimp only at one
      split at one
      · cases one
        exact hypothesis others
      · cases one

/-- The locals of a function were entered with its body. -/
theorem locals_of_resolvedBody {again beside : Productions}
    (followed : again.Followed c beside)
    {result : TyId} {params : List Param} (named : Named c.tokens params)
    (within : state.Within c.tokens) {function : Function} {after : State}
    (run : resolvedBody again result params state = .ok function after) :
    after.locals = [] ∧ ∀ id ∈ function.locals, state.program.symbols.size ≤ id.index ∧
      ∃ symbol, after.program.symbol? id = some symbol ∧ symbol.kind =
        .localVar none := by
  obtain ⟨_, opened, ⟨⟩, run⟩ := bind_ok run
  obtain ⟨⟨symbols, body⟩, parsed, bodyRun, run⟩ := bind_ok run
  obtain ⟨context, finished, finishing, run⟩ := bind_ok run
  obtain ⟨_, checked, checking, done⟩ := bind_ok run
  cases done
  obtain rfl := checkGotos_ok checking
  have opening : State.Within c.tokens
      { state with function := some ⟨result, [], [], []⟩ } :=
    ⟨within.same, within.cursor, within.types⟩
  have added :=
    (Follows.functionBody followed named _ opening (Nat.zero_le _)).added _ _ bodyRun
  cases known : parsed.function with
  | none =>
      unfold finishFunction at finishing
      rw [get_run, known] at finishing
      cases finishing
  | some function =>
      rw [finishFunction_run known] at finishing
      cases finishing
      refine ⟨rfl, fun id member => ?_⟩
      have listed : id ∈ parsed.locals := by
        unfold State.locals
        rw [known]
        exact member
      rcases added.locals id listed with never | entered
      · cases never
      · exact entered

/-! ## Definitions -/

/-- A function that has been entered, with what its body makes of it. -/
def enteredFunction (again : Productions) (name : String) (ty : TyId) (isStatic : Bool)
    (result : TyId) (params : List Param) : Parser (SymbolId × Function) := do
  let id ← newFunction name ty isStatic
  return (id, ← resolvedBody again result params)

/-- The function and its locals, which may change when its frame is laid out. -/
def Changing (id : SymbolId) (function : Function) (other : SymbolId) : Prop :=
  other = id ∨ other ∈ function.locals

/-- A frame that fits is recorded. -/
theorem layoutFrame_ok {id : SymbolId} {tok : Nat} {program : Program}
    (laid : Program.layoutFrame id state.program = .ok () program) :
    layoutFrame id tok state = .ok () { state with program := program } := by
  unfold layoutFrame
  rw [get_run, laid]
  rfl

/-- A frame that is too large is rejected. -/
theorem layoutFrame_overflow {id : SymbolId} {tok : Nat} {program : Program}
    (laid : Program.layoutFrame id state.program = .error .sizeOverflow program) :
    layoutFrame id tok state =
      (failAt tok (.typing .frameTooLarge) : Parser Unit) state := by
  unfold layoutFrame
  rw [get_run, laid]

theorem layoutFrame_fault {id : SymbolId} {tok : Nat} {reason : Fault} {program : Program}
    (laid : Program.layoutFrame id state.program = .error (.fault reason) program) :
    layoutFrame id tok state = .error (.fault reason) state := by
  unfold layoutFrame
  rw [get_run, laid]
  rfl

/-- The frame of a function is laid out, or the source text is rejected. -/
theorem defineFunction_cases {id : SymbolId} {symbol : Symbol} (tok : Nat)
    (function : Function) (within : state.Within c.tokens)
    (found : state.program.symbol? id = some symbol) :
    (∃ program, defineFunction id tok function state =
        .ok () { state with program := program } ∧
      defineFunction id tok function (c.view state) =
        .ok () (c.view { state with program := program }) ∧
      state.program.Rekinds (Changing id function) program) ∨
    ∃ error last, defineFunction id tok function state = .error error last ∧
      (c.whole -> ∃ end_, defineFunction id tok function (c.view state) =
        .error (error.relocate c.place) end_) := by
  have defined : (state.program.setSymbolKind id (.function function)).symbol? id =
      some { symbol with kind := .function function } := by
    change (state.program.symbols.modify id.index _)[id.index]? = _
    rw [Array.getElem?_modify, if_pos rfl]
    exact congrArg (Option.map _) found
  have besideLaid : Program.layoutFrame id
      ((c.view state).program.setSymbolKind id (.function function)) = _ :=
    Program.Placeless.layoutFrame id (state.program.setSymbolKind id (.function function))
  cases laid : Program.layoutFrame id
    (state.program.setSymbolKind id (.function function)) with
  | ok _ program =>
      rw [laid] at besideLaid
      refine .inl ⟨program, layoutFrame_ok laid, layoutFrame_ok besideLaid, ?_⟩
      exact (Program.Rekinds.setSymbolKind (.inl rfl) _ _).trans
        (.layoutFrame defined rfl (.inl rfl) (fun _ member => .inr member) laid)
  | error reason program =>
      rw [laid] at besideLaid
      refine .inr ?_
      cases reason with
      | sizeOverflow =>
          refine ⟨_, _, layoutFrame_overflow laid, fun whole => ?_⟩
          obtain ⟨end_, failed⟩ :=
            (@Follows.failAt c 0 Unit .blind tok (.typing .frameTooLarge)
            { state with program := state.program.setSymbolKind id (.function function) }
            ⟨within.same, within.cursor, within.types⟩ (Nat.zero_le _)).fails
              whole _ _ rfl
          have overflows : layoutFrame id tok { c.view state with
              program :=
                (c.view state).program.setSymbolKind id (.function function) } = _ :=
            layoutFrame_overflow besideLaid
          exact ⟨end_, overflows.trans failed⟩
      | fault reason =>
          exact ⟨_, _, layoutFrame_fault laid, fun _ => ⟨_, layoutFrame_fault besideLaid⟩⟩

/-- What has been added stays added when the kinds of new symbols change, if these are no
variables of the file scope. -/
theorem Added.rekinded {changing : SymbolId -> Prop} {before after : State}
    {program : Program} (added : Added c.tokens before after)
    (rekinds : after.program.Rekinds changing program)
    (noLocals : after.locals = [])
    (changed : ∀ id, changing id -> before.program.symbols.size ≤ id.index ∧
      ∃ symbol, after.program.symbol? id = some symbol ∧ ∀ init,
        symbol.kind ≠ .globalVar init) :
    Added c.tokens before { after with program := program } := by
  refine added.settle ⟨added.within.same, added.within.cursor, ?_⟩ rfl ⟨?_, ?_, ?_⟩
    (fun id member => ?_) ⟨?_, ?_⟩ rekinds.globals rfl
  · rw [rekinds.types]
    exact added.within.types
  · rw [rekinds.types]
    exact added.begins.types
  · rw [rekinds.nodes]
    exact added.begins.nodes
  · intro index symbol there
    obtain ⟨now, here, _, same⟩ := rekinds.symbols ⟨index⟩ symbol
      (added.begins.symbols index symbol there)
    rw [← same fun changing => ?_]
    · exact here
    · have bound := (Array.getElem?_eq_some_iff.mp there).1
      have beyond : before.program.symbols.size ≤ index := (changed _ changing).1
      omega
  · have listed : id ∈ after.locals := member
    rw [noLocals] at listed
    cases listed
  · rw [rekinds.types]
    exact fun _ _ there _ => there
  · intro id symbol there
    obtain ⟨now, here, name, same⟩ := rekinds.symbols id symbol there
    refine ⟨now, here, name, fun init kind => same fun changing => ?_⟩
    obtain ⟨-, other, found, apart⟩ := changed id changing
    obtain rfl := Option.some.inj (found.symm.trans there)
    exact apart init kind

/-- A function definition, whose name stands at a token. -/
theorem FollowsAt.definition {again beside : Productions}
    (followed : again.Followed c beside)
    {name : String} (undotted : Undotted name) (ty : TyId) (isStatic : Bool)
    (result : TyId) {params : List Param} (named : Named c.tokens params) (tok : Nat)
    (within : state.Within c.tokens) :
    FollowsAt c state .closing
      (enteredFunction again name ty isStatic result params >>= fun entered =>
        defineFunction entered.1 tok entered.2)
      (enteredFunction beside name ty isStatic result params >>= fun entered =>
        defineFunction entered.1 tok entered.2) := by
  have entering : Follows c state.pos .closing
      (enteredFunction again name ty isStatic result params)
      (enteredFunction beside name ty isStatic result params) :=
    .bind (.newFunction undotted ty isStatic) fun _ =>
      .close (.resolvedBody followed result named) fun _ => .pure id trivial
  refine .settle (entering _ within (Nat.le_refl _))
    fun ⟨id, function⟩ after run added _ => ?_
  obtain ⟨entered, first, entry, rest⟩ := bind_ok run
  obtain ⟨resolved, second, body, done⟩ := bind_ok rest
  cases done
  have firstThere := (Follows.newFunction undotted ty isStatic state within
    (Nat.zero_le _)).added _ _ entry
  have bodyThere := (Follows.resolvedBody followed result named first firstThere.within
    (Nat.zero_le _)).added _ _ body
  obtain ⟨noLocals, locals⟩ :=
    locals_of_resolvedBody followed named firstThere.within body
  cases entry
  have found := bodyThere.begins.symbols _ _ (Array.getElem?_push_size :
    (state.program.symbols.push ⟨name, ty, isStatic, .function ⟨[], [], none, 0⟩⟩)[
      state.program.symbols.size]? = _)
  rcases defineFunction_cases tok function added.within found with
    ⟨program, ran, besideRan, rekinds⟩ | failed
  · refine .inl ⟨(), _, ran, besideRan, ?_, rfl, id, id, trivial⟩
    refine added.rekinded rekinds noLocals fun known changing => ?_
    rcases changing with rfl | member
    · exact ⟨Nat.le_refl _, _, found, fun _ never => by cases never⟩
    · obtain ⟨beyond, symbol, there, kind⟩ := locals known member
      refine ⟨Nat.le_trans firstThere.begins.symbols.size_le beyond, symbol, there,
        fun _ same => ?_⟩
      cases kind.symm.trans same
  · exact .inr failed

/-! ## Declarations -/

/-- A function that is declared without a semicolon behind it is defined. -/
theorem declared_run (again : Productions) {name : String} {ty result : TyId}
    {isStatic : Bool} {params : List Param} {tok : Nat} (other : state.sees ";" = false) :
    (do
      let id ← newFunction name ty isStatic
      unless ← accept ";" do
        functionDefinition again id result params tok : Parser Unit) state =
      (enteredFunction again name ty isStatic result params >>= fun entered =>
        defineFunction entered.1 tok entered.2) state := by
  have entered : newFunction name ty isStatic state = .ok _ _ := rfl
  unfold enteredFunction
  simp only [bind_assoc, pure_bind]
  rw [bind_run entered, bind_run entered, ← functionDefinition_eq_define]
  exact accept_else other

namespace Follows

section

variable {again beside : Productions} (followed : again.Followed c beside)

include followed

/-- A function that is declared, and defined unless a semicolon follows. -/
theorem declaredFunction {name : String} (undotted : Undotted name) (ty : TyId)
    (isStatic : Bool) (result : TyId) {params : List Param}
    (named : Named c.tokens params) (tok : Nat) :
    Follows c low .closing
      (do
        let id ← Grammar.newFunction name ty isStatic
        unless ← Grammar.accept ";" do
          functionDefinition again id result params tok)
      (do
        let id ← Grammar.newFunction name ty isStatic
        unless ← Grammar.accept ";" do
          functionDefinition beside id result params tok) := by
  intro state within reached
  by_cases here : state.sees ";" = true
  · refine @FollowsAt.blind _ _ _ _ _ _ _ _ (fun _ => True) _
      (newFunction undotted ty isStatic state within reached)
        fun id entered run added _ => ?_
    have shown : entered.sees ";" = true := by
      cases run
      exact here
    have further :=
      lt_last c.sound.ended added.within.same (kind_ne_eof_of_isSymbol shown)
    have besideShown : (c.view entered).sees ";" = true := by
      rw [Comparison.Shown.sees (.inr further) added.within.same]
      exact shown
    exact .behind_token added.within further (Token.string?_of_isSymbol shown)
      (accept_then shown) (accept_then besideShown)
      (Follows.pure (fun never => never) trivial _ (next_within added.within further)
        (Nat.zero_le _))
  · have other : state.sees ";" = false := by simpa using here
    refine .congr (declared_run again other) rfl (.here_run (fun shown => ?_)
      (.definition followed undotted ty isStatic result named tok within))
    refine declared_run beside ?_
    rw [shown.sees within.same]
    exact other

/-- A function ends behind a semicolon or a body. -/
theorem function {declared : Declarator} (named : c.Names declared) (storage : Storage) :
    Follows c low .closing (Grammar.function again declared storage)
      (Grammar.function beside declared storage) := by
  refine .bind_gives (.requireName named) fun tok identifier =>
    .bind_gives (.signature _ tok) fun signed parameters => .get_bind
      fun state within reached => ?_
  have seen := Comparison.lt_last_of_identifier identifier
  have undotted : Undotted (state.token tok).text := by
    rw [State.token, within.same]
    exact c.sound.undotted identifier
  rw [Comparison.Shown.token (.inr seen) within.same, Token.relocate_text]
  exact declaredFunction followed undotted _ _ _ parameters _ state within reached

omit followed in
/-- A global variable is declared by the token of its name. -/
theorem declareGlobal {declared : Declarator} (named : c.Names declared)
    (storage : Storage) :
    Follows c low .blind (Grammar.declareGlobal storage declared)
      (Grammar.declareGlobal storage declared) := by
  refine .bind_gives (.requireName named) fun tok identifier =>
    .bind (.checkVariableTy _ tok) fun _ => .get_bind fun state within reached => ?_
  have undotted : Undotted (state.token tok).text := by
    rw [State.token, within.same]
    exact c.sound.undotted identifier
  rw [Comparison.Shown.token
    (.inr (Comparison.lt_last_of_identifier identifier)) within.same, Token.relocate_text]
  exact Follows.bind (.newGlobal undotted _ _) (fun _ => .pure id trivial) state
    within reached

/-- Global variables are closed by their semicolon. -/
theorem globalVariables (base : TyId) {first : Declarator} (named : c.Names first)
    (storage : Storage) :
    Follows c low .closing (Grammar.globalVariables again base first storage)
      (Grammar.globalVariables beside base first storage) :=
  .iterate c.Names named fun _ named => .bind (.declareGlobal named storage) fun _ =>
    .accept (.pure id trivial) <| .peek (.loose (.of_closing (.expect ","))) fun _ =>
      .peek_gives (.declarator followed base) fun _ named => .pure id named

/-- A declaration at file scope is closed by its semicolon or its brace. -/
theorem fileDeclaration :
    Follows c low .closing (Grammar.fileDeclaration again)
      (Grammar.fileDeclaration beside) :=
  .peek (.specifiers followed true) fun _ => .ite (.typedefNames followed _) <|
    .accept (.pure id trivial) <| .peek_gives (.declarator followed _) fun _ named =>
      .bind (.lookupTy _) fun _ => .ite (.function followed named _)
        (.globalVariables followed _ named _)

/-- A round reads a declaration, unless the stream ends. -/
theorem unitRound (current : Unit) :
    Follows c low (.round (fun _ => True) .peeking) (Grammar.unitRound again current)
      (Grammar.unitRound beside current) := by
  refine .get_bind fun state within reached => ?_
  refine .here (fun shown => by rw [shown.current within.same, Token.relocate_isEof]) ?_
  refine .ite (fun _ => Follows.pure id trivial state within reached) fun _ => ?_
  exact Follows.peek (.loose (.of_closing (.fileDeclaration followed)))
    (fun _ => .pure id trivial) state within reached

/-- The rounds go on where the stream does. -/
theorem unit : Follows c low .peeking (Grammar.unit again) (Grammar.unit beside) :=
  .iterate (fun _ => True) trivial fun current _ => .unitRound followed current

end

end Follows

/-! ## All declarations -/

/-- The table of the primitive types is furnished. -/
theorem Furnished.initial (tokens : TokenStream) : Furnished tokens .initial where
  char := rfl
  named := by
    intro id ty result params found kind
    have none :
        ∀ ty ∈ TypeTable.initial.entries, ∀ result params,
          ty.kind ≠ .func result params := by
      simp [TypeTable.initial]
    exact absurd kind (none ty (Array.mem_of_getElem? found) result params)

/-- The first token is one of the stream. -/
theorem State.Within.initial (tokens : TokenStream) :
    (State.initial tokens).Within tokens :=
  ⟨rfl, Nat.zero_le _, .initial tokens⟩

/-- A run over declarations to the end of a stream is followed round by round.  Behind it
the other stream may go on. -/
theorem unit_followed {again beside : Productions} (followed : again.Followed c beside)
    {bound : Nat} {after : State} (within : state.Within c.tokens)
    (run : iterateFor (unitRound again) bound () state = .ok () after) :
    Added c.tokens state after ∧ after.current.isEof = true ∧
      ∃ passed, passed ≤ bound ∧ ∀ more,
        iterateFor (unitRound beside) (more + passed) () (c.view state) =
          iterateFor (unitRound beside) more () (c.view after) := by
  induction bound generalizing state with
  | zero => cases run
  | succ bound hypothesis =>
      cases ends : state.current.isEof with
      | true =>
          rw [iterateFor_done (unitRound_of_eof ends)] at run
          cases run
          exact ⟨.refl within, ends, 0, Nat.zero_le _, fun _ => rfl⟩
      | false =>
          have further : state.pos < c.tokens.last :=
            lt_last c.sound.ended within.same fun same => by
              rw [Token.isEof, same] at ends
              cases ends
          have besideEnds : (c.view state).current.isEof = false := by
            rw [Comparison.Shown.current (.inr further) within.same, Token.relocate_isEof]
            exact ends
          obtain ⟨_, between, round, run⟩ := bind_ok run
          rw [unitRound_run ends] at round
          obtain ⟨_, middle, declared, done⟩ := bind_ok round
          cases done
          have follows := Follows.fileDeclaration followed state within (Nat.zero_le _)
          have added := follows.added _ _ declared
          have agreed := follows.agrees _ _ declared (.inr (.inl trivial))
          obtain ⟨others, atEnd, passed, below, rounds⟩ := hypothesis added.within run
          refine ⟨added.trans others, atEnd, passed + 1,
            Nat.succ_le_succ below, fun more => ?_⟩
          rw [← Nat.add_assoc, iterateFor_again ((unitRound_run besideEnds).trans
            (bind_run agreed))]
          exact rounds more

/-- A stream beside itself. -/
def Comparison.self (sound : tokens.Sound) : Comparison where
  tokens := tokens
  other := tokens
  place := id
  whole := True
  sound := sound
  alike := fun _ _ => rfl
  last_le := Nat.le_refl _
  last_eq := fun _ => rfl

/-- A stream beside the same tokens at other offsets. -/
def Comparison.relocated (sound : tokens.Sound) (place : Nat -> Nat) : Comparison where
  tokens := tokens
  other := tokens.relocate place
  place := place
  whole := True
  sound := sound
  alike := fun index _ => tokens.get_relocate place index
  last_le := Nat.le_of_eq (tokens.relocate_last place).symm
  last_eq := fun _ => tokens.relocate_last place

/-- A stream beside a longer one that begins with its tokens. -/
def Comparison.continued {longer : TokenStream} (sound : tokens.Sound)
    (last_le : tokens.last ≤ longer.last)
    (same : ∀ index, index < tokens.last -> longer.get index = tokens.get index) :
    Comparison where
  tokens := tokens
  other := longer
  place := id
  whole := False
  sound := sound
  alike := fun index shown => by
    rw [Token.relocate_id]
    exact same index (shown.resolve_left id)
  last_le := last_le
  last_eq := False.elim

/-- Both streams are begun in the same state. -/
theorem Comparison.view_initial (c : Comparison) :
    c.view (.initial c.tokens) = .initial c.other := by
  unfold Comparison.view State.initial Program.relocate Program.empty
  simp

end Grammar

open Grammar

variable {tokens : TokenStream}

/-- A program that is parsed is that of the state behind its last declaration. -/
theorem unit_of_parse {program : Program} (parsed : parse tokens = .ok program) :
    ∃ after, unit (productions (tokens.last + 1)) (.initial tokens) = .ok () after ∧
      after.program = program := by
  unfold parse at parsed
  split at parsed
  · exact ⟨_, ‹_›, Except.ok.inj parsed⟩
  · cases parsed

/-- Offsets of tokens do not change what is parsed. -/
theorem parse_relocate (sound : tokens.Sound) (place : Nat -> Nat) :
    parse (tokens.relocate place) =
      match parse tokens with
      | .ok program => .ok (program.relocate place)
      | .error error => .error (error.relocate place) := by
  have followed := productions_followed (c := .relocated sound place) (tokens.last + 1) _
    (Nat.le_refl _) fun _ => rfl
  have follows :=
    Follows.unit followed (.initial tokens) (.initial tokens) (Nat.zero_le 0)
  have begins : (Comparison.relocated sound place).view (.initial tokens) =
      .initial (tokens.relocate place) := Comparison.view_initial _
  unfold parse
  rw [TokenStream.relocate_last, ← begins]
  cases run : unit (productions (tokens.last + 1)) (.initial tokens) with
  | ok _ after =>
      rw [follows.agrees _ _ run (.inl trivial)]
      rfl
  | error error after =>
      obtain ⟨last, failed⟩ := follows.fails trivial _ _ run
      rw [failed]
      rfl

/-- The file-scope symbols of a program are the arrays of the string literals in order,
and symbols with names of the source text. -/
theorem gathers_of_parse (sound : tokens.Sound) (closed : tokens.Closed)
    {program : Program} (parsed : parse tokens = .ok program) :
    program.Gathers 0 program.globals.toList (tokens.strings 0 tokens.last) := by
  obtain ⟨after, run, rfl⟩ := unit_of_parse parsed
  rw [unit_run] at run
  have followed := productions_followed (c := .self sound)
    (tokens.last + 1) _ (Nat.le_refl _)
    fun _ => rfl
  obtain ⟨added, ends, _⟩ := unit_followed followed (.initial tokens) run
  have own : after.tokens = tokens := added.within.same
  have beyond : tokens.last ≤ after.pos := closed after.pos (by rw [← own]; exact ends)
  obtain ⟨ids, listed, gathers, _⟩ := added.gathered
  have atEnd : after.pos = tokens.last := Nat.le_antisymm added.within.cursor beyond
  have all : after.program.globals.toList = ids := listed
  rw [all, ← atEnd]
  exact gathers

/-- What a stream is parsed into is at the head of what a longer stream is parsed into. -/
theorem begins_of_parse {longer : TokenStream} (sound : tokens.Sound)
    (alsoSound : longer.Sound) (last_le : tokens.last ≤ longer.last)
    (same : ∀ index, index < tokens.last -> longer.get index = tokens.get index)
    {program more : Program}
    (parsed : parse tokens = .ok program) (alsoParsed : parse longer = .ok more) :
    program.Begins more ∧ program.globals.toList <+: more.globals.toList := by
  let c := Comparison.continued sound last_le same
  obtain ⟨after, run, rfl⟩ := unit_of_parse parsed
  obtain ⟨final, alsoRun, rfl⟩ := unit_of_parse alsoParsed
  rw [unit_run] at run alsoRun
  have followed := @productions_followed c (tokens.last + 1) (longer.last + 1)
    (Nat.succ_le_succ last_le) False.elim
  obtain ⟨added, -, passed, below, rounds⟩ :=
    unit_followed followed (.initial tokens) run
  have enough : passed ≤ longer.last + 2 :=
    Nat.le_trans below (Nat.add_le_add_right last_le 2)
  have start : c.view (.initial tokens) = .initial longer := c.view_initial
  have rest : iterateFor (unitRound (productions (longer.last + 1)))
      (longer.last + 2 - passed) () (c.view after) = .ok () final := by
    rw [← rounds, start, Nat.sub_add_cancel enough]
    exact alsoRun
  have within : State.Within longer (c.view after) := by
    refine ⟨rfl, Nat.le_trans added.within.cursor last_le, added.within.types.char, ?_⟩
    intro id ty result params found kind param member tok named
    have identifier := added.within.types.named id ty result params found kind
      param member tok named
    rw [same tok (c.lt_last_of_identifier identifier)]
    exact identifier
  have alsoFollowed := productions_followed (c := .self alsoSound) (longer.last + 1) _
    (Nat.le_refl _) fun _ => rfl
  obtain ⟨further, -, -⟩ := unit_followed alsoFollowed within rest
  have begins := further.begins
  obtain ⟨ids, listed, -⟩ := further.gathered
  rw [Comparison.view_program, show c.place = id from rfl,
    Program.relocate_id] at begins listed
  exact ⟨begins, ids, listed.symm⟩

end MiniC
