import MiniC.Proofs.Grammar.Beside.Tables

/-!
# Productions beside each other

Every production is followed by the same production on another stream of tokens that shows
what it reads.  Of the productions that a production may call again this is assumed; they
may recur to a greater depth beside it.

A production that looks at the token behind the cursor to choose between two others is
followed although that token may not be shown: whatever it chooses passes the token at the
cursor.
-/

namespace MiniC
namespace Grammar

variable {c : Comparison} {state : State} {low : Nat} {α β σ : Type}

/-- A declarator whose name, if it has one, is an identifier. -/
def Comparison.Names (c : Comparison) (declared : Declarator) : Prop :=
  ∀ tok, declared.name = some tok -> (c.tokens.get tok).isIdentifier = true

/-- A parameter whose name, if it has one, is an identifier. -/
def Comparison.NamesParam (c : Comparison) (param : Param) : Prop :=
  ∀ tok, param.name = some tok -> (c.tokens.get tok).isIdentifier = true

/-- Productions that are followed by other productions. -/
structure Productions.Followed (c : Comparison) (again beside : Productions) : Prop where
  specifiers : ∀ low allowed,
    Follows c low .peeking (again.specifiers allowed) (beside.specifiers allowed)
  declarator : ∀ low ty,
    Follows c low (.giving .peeking c.Names) (again.declarator ty) (beside.declarator ty)
  suffix : ∀ low ty, Follows c low .peeking (again.suffix ty) (beside.suffix ty)
  expr : ∀ low, Follows c low .passing again.expr beside.expr
  assign : ∀ low, Follows c low .passing again.assign beside.assign
  cast : ∀ low, Follows c low .passing again.cast beside.cast
  unary : ∀ low, Follows c low .passing again.unary beside.unary
  stmt : ∀ low, Follows c low .passing again.stmt beside.stmt
  block : ∀ low, Follows c low .closing again.block beside.block
  closed : ∀ ty, Spans c.tokens 0 0 (again.declarator ty)
  fresh : ∀ state value after, state.Within c.tokens ->
    again.block state = .ok value after -> state.program.nodes.size ≤ value.index

/-! ## Declarators in parentheses -/

/-- The first reading of a declarator in parentheses, and the suffix behind it. -/
def firstReading (again : Productions) (ty : TyId) : Parser TyId := do
  advance
  let _ ← again.declarator .int
  expect ")"
  suffix again ty

/-- The second reading of a declarator, from its first token on.  The cursor returns. -/
def secondReading (again : Productions) (inner : Nat) (outer : TyId) :
    Parser Declarator := do
  let stop ← position
  seek inner
  let declared ← again.declarator outer
  seek stop
  return declared

/-- The two readings of a declarator in parentheses, one behind the other. -/
theorem nestedDeclarator_run {again : Productions} {ty : TyId}
    (further : state.pos < state.tokens.last) :
    nestedDeclarator again ty state =
      (firstReading again ty >>= secondReading again (state.pos + 1)) state := by
  unfold nestedDeclarator firstReading secondReading
  simp only [bind_assoc]
  rw [bind_run (advance_run further), bind_run (advance_run further), position_run]
  rfl

theorem sees_of_expect {symbol : String} {value : Unit} {after : State}
    (run : expect symbol state = .ok value after) : state.sees symbol = true := by
  by_contra other
  unfold expect at run
  rw [bind_run (accept_of_not_sees (by simpa using other))] at run
  cases run

/-- Where no identifier stands there is none to be read. -/
theorem identifier?_none (other : state.current.isIdentifier = false) :
    identifier? state = .ok none state := by
  change (if state.current.isIdentifier = true then _ else _ : Parser _) state = _
  rw [other]
  rfl

/-! ## Aggregates -/

/-- A struct or union whose type is entered open, with its fields. -/
def openAggregate (again : Productions) (form : Form) (tag : Option (String × Nat))
    (brace : Nat) : Parser (TyId × List Field) := do
  let id ← enterTy (·.incomplete form brace)
  bindTag tag id
  return (id, ← fieldList again)

/-- The type of a struct or union, completed with its fields. -/
def closeAggregate (brace : Nat) (entered : TyId × List Field) : Parser TyId := do
  completeTy entered.1 entered.2 brace
  return entered.1

/-- The body of a struct or union, divided where its members begin. -/
theorem aggregateBody_eq (again : Productions) (form : Form)
    (tag : Option (String × Nat)) :
    aggregateBody again form tag = (do
      let brace ← position
      expect openBrace
      closeAggregate brace (← openAggregate again form tag brace)) := by
  simp only [aggregateBody, openAggregate, closeAggregate, bind_assoc, pure_bind]

/-- A struct or union that fits is completed. -/
theorem completeTy_run {id : TyId} {fields : List Field} {types : TypeTable} {tok : Nat}
    (known : state.program.types.complete id fields = .ok types) :
    completeTy id fields tok state =
      .ok () { state with program := { state.program with types := types } } := by
  unfold completeTy
  rw [get_run, known]
  rfl

/-- A struct or union that is too large is rejected. -/
theorem completeTy_overflow {id : TyId} {fields : List Field} {tok : Nat}
    (known : state.program.types.complete id fields = .error .sizeOverflow) :
    completeTy id fields tok state =
      (failAt tok (.typing .aggregateTooLarge) : Parser Unit) state := by
  unfold completeTy
  rw [get_run, known]

theorem completeTy_fault {id : TyId} {fields : List Field} {tok : Nat} {reason : Fault}
    (known : state.program.types.complete id fields = .error (.fault reason)) :
    completeTy id fields tok state = .error (.fault reason) state := by
  unfold completeTy
  rw [get_run, known]
  rfl

/-- A symbol that is known to stand at the cursor is skipped. -/
theorem FollowsAt.skip {mode : Mode α} {rest behind : Unit -> Parser α} {symbol : String}
    (within : state.Within c.tokens) (here : state.sees symbol = true)
    (follows : state.next.Within c.tokens ->
      FollowsAt c state.next mode.landed (rest ()) (behind ())) :
    FollowsAt c state mode (Grammar.advance >>= rest) (Grammar.advance >>= behind) := by
  have further := lt_last c.sound.ended within.same (kind_ne_eof_of_isSymbol here)
  exact .behind_token within further (Token.string?_of_isSymbol here)
    (bind_run (advance_run (within.same ▸ further)))
    (bind_run (advance_run (Nat.lt_of_lt_of_le further c.last_le)))
    (follows (Follows.next_within within further))

namespace Follows

/-! ## Declarators -/

theorem pointers (base : TyId) :
    Follows c low .peeking (Grammar.pointers base) (Grammar.pointers base) :=
  .iterate (fun _ => True) trivial fun _ _ =>
    .accept (.bind (.pointerTo _) fun _ => .pure id trivial) (.pure id trivial)

theorem parameterTy (ty : TyId) :
    Follows c low .blind (Grammar.parameterTy ty) (Grammar.parameterTy ty) := by
  refine .bind (.lookupTy ty) fun entry => ?_
  split
  · exact .pointerTo _
  · exact .pure id trivial

/-- The name of a declarator is an identifier. -/
theorem requireName {declared : Declarator} (named : c.Names declared) :
    Follows c low (.giving .blind fun tok => (c.tokens.get tok).isIdentifier = true)
      declared.requireName declared.requireName := by
  unfold Declarator.requireName
  cases known : declared.name with
  | none => exact .failAt _ _
  | some tok => exact .pure id (named tok known)

section

variable {again beside : Productions} (followed : again.Followed c beside)

include followed

/-- A parameter is named by a token that is shown. -/
theorem parameter : Follows c low (.giving .peeking c.NamesParam)
    (Grammar.parameter again)
    (Grammar.parameter beside) :=
  .peek (followed.specifiers _ false) fun _ => .peek_gives (followed.declarator _ _)
    fun _ named => .bind (.parameterTy _) fun _ => .pure id named

/-- A list of parameters ends behind its parenthesis. -/
theorem parameters (result : TyId) :
    Follows c low .passing (Grammar.parameters again result)
      (Grammar.parameters beside result) := by
  refine .get_bind fun state within reached => ?_
  refine .ahead (fun shown => by
    rw [(shown.mono (Nat.le_succ _)).sees within.same, Comparison.view_pos,
      shown.seesAt within.same]) ?_
  refine .ite (fun emptyList => ?_) fun _ => ?_
  · have ⟨void, close⟩ := Bool.and_eq_true_iff.mp emptyList
    exact .skip within void fun within => .skip within close fun within =>
      Follows.of_blind (.enterFunction result fun _ never => by cases never) _ within
        (Nat.zero_le _)
  · have listed : Follows c low (.giving .closing fun params => Named c.tokens params)
        (Grammar.iterate [] fun params => do
          if ← Grammar.accept ")" then
            return .done params
          else
            unless params.isEmpty do
              Grammar.expect ","
            return .again (params ++ [← Grammar.parameter again]))
        (Grammar.iterate [] fun params => do
          if ← Grammar.accept ")" then
            return .done params
          else
            unless params.isEmpty do
              Grammar.expect ","
            return .again (params ++ [← Grammar.parameter beside])) :=
      .iterate (Named c.tokens) (fun _ never => by cases never) fun params named =>
        .accept (.pure id named) <| .separated (.expect ",") fun _ =>
          .peek_gives (.parameter followed) fun param also => .pure id
            fun other member => by
            rcases List.mem_append.mp member with before | last
            · exact named other before
            · obtain rfl := List.mem_singleton.mp last
              exact also
    exact Follows.close_gives listed
      (fun params named => .of_blind (.enterFunction result named)) state within reached

/-- Behind a bracket another suffix may follow. -/
theorem arraySuffix (ty : TyId) :
    Follows c low .peeking (Grammar.arraySuffix again ty)
      (Grammar.arraySuffix beside ty) :=
  .position_bind fun tok _ => .close .number fun _ => .first_if (.failAt _ _) fun _ =>
    .close (.expect "]") fun _ => .peek (followed.suffix _ ty) fun _ =>
      .bind (.lookupTy _) fun _ =>
      .first_if (.failAt _ _) fun _ => .of_blind (.arrayOf _ _ tok _)

/-- Whether a suffix follows is seen at the token behind. -/
theorem suffix (ty : TyId) :
    Follows c low .peeking (Grammar.suffix again ty) (Grammar.suffix beside ty) :=
  .accept (.loose (.parameters followed ty)) <|
    .accept (.arraySuffix followed ty) (.pure id trivial)

/-- The first reading of a declarator in parentheses ends at the closing one. -/
theorem firstReading (ty : TyId) (here : state.sees "(" = true)
    (within : state.Within c.tokens) :
    FollowsAt c state .passing (Grammar.firstReading again ty)
      (Grammar.firstReading beside ty) :=
  .skip within here fun within =>
    Follows.peek_gives (followed.declarator 0 _)
      (fun _ _ => .close (.expect ")") fun _ => .suffix followed ty) _ within
        (Nat.zero_le _)

/-- The second reading of a declarator ends no later than the first, so it is followed
whatever is shown behind. -/
theorem secondReading {inner stop : Nat} (outer : TyId)
    (within : state.Within c.tokens)
    (cursor : inner ≤ c.tokens.last)
    (shown : c.Shown stop)
    (ends : ∀ declared after,
      again.declarator outer { state with pos := inner } = .ok declared after ->
        after.pos ≤ stop ∧ c.tokens.strings inner after.pos = []) :
    (∃ declared last, Grammar.secondReading again inner outer state = .ok declared last ∧
        Grammar.secondReading beside inner outer (c.view state) =
          .ok declared (c.view last) ∧
        Added c.tokens state last ∧ last.pos = state.pos ∧ c.Names declared) ∨
      ∃ error last, Grammar.secondReading again inner outer state = .error error last ∧
        (c.whole -> ∃ end_, Grammar.secondReading beside inner outer (c.view state) =
          .error (error.relocate c.place) end_) := by
  have start : State.Within c.tokens { state with pos := inner } :=
    ⟨within.same, cursor, within.types⟩
  have reading := followed.declarator 0 outer _ start (Nat.zero_le _)
  have sought : Grammar.seek inner state = .ok () { state with pos := inner } := by
    change EStateM.Result.ok () { state with pos := min inner state.tokens.last } = _
    rw [within.same, Nat.min_eq_left cursor]
  have besideSought : Grammar.seek inner (c.view state) =
      .ok () (c.view { state with pos := inner }) := by
    change EStateM.Result.ok () { c.view state with pos := min inner c.other.last } = _
    rw [Nat.min_eq_left (Nat.le_trans cursor c.last_le)]
    rfl
  cases run : again.declarator outer { state with pos := inner } with
  | ok declared after =>
      obtain ⟨near, none⟩ := ends declared after run
      have added := reading.added declared after run
      have agreed := reading.agrees declared after run <| by
        rcases shown.mono near with whole | further
        · exact .inl whole
        · exact .inr (.inr further)
      refine .inl ⟨declared, { after with pos := state.pos }, ?_, ?_,
        added.reread within none, rfl, reading.gives declared after run⟩
      · unfold Grammar.secondReading
        rw [position_run, bind_run sought, bind_run run]
        change EStateM.Result.ok declared
          { after with pos := min state.pos after.tokens.last } = _
        rw [added.within.same, Nat.min_eq_left within.cursor]
      · unfold Grammar.secondReading
        rw [position_run, bind_run besideSought, bind_run agreed]
        change EStateM.Result.ok declared
          { c.view after with pos := min state.pos c.other.last } = _
        rw [Nat.min_eq_left (Nat.le_trans within.cursor c.last_le)]
        rfl
  | error error after =>
      refine .inr ⟨error, after, ?_, fun whole => ?_⟩
      · unfold Grammar.secondReading
        rw [position_run, bind_run sought, bind_fail run]
      · obtain ⟨end_, failed⟩ := reading.fails whole error after run
        refine ⟨end_, ?_⟩
        unfold Grammar.secondReading
        rw [position_run, bind_run besideSought, bind_fail failed]

/-- A parameter list that has begun. -/
theorem suffix_open (here : state.sees "(" = true)
    (within : state.Within c.tokens) (ty : TyId) :
    FollowsAt c state .passing (Grammar.suffix again ty) (Grammar.suffix beside ty) := by
  have further := lt_last c.sound.ended within.same (kind_ne_eof_of_isSymbol here)
  have besideHere : (c.view state).sees "(" = true := by
    rw [Comparison.Shown.sees (.inr further) within.same]
    exact here
  exact .behind_token within further (Token.string?_of_isSymbol here) (accept_then here)
    (accept_then besideHere) (Follows.loose (.parameters followed ty) _
      (next_within within further) (Nat.zero_le _))

include followed in
/-- The two readings of a declarator in parentheses. -/
theorem nestedDeclarator
    (here : state.sees "(" = true) (within : state.Within c.tokens) (ty : TyId) :
    FollowsAt c state (.giving .passing c.Names) (Grammar.nestedDeclarator again ty)
      (Grammar.nestedDeclarator beside ty) := by
  have further := lt_last c.sound.ended within.same (kind_ne_eof_of_isSymbol here)
  refine .congr (nestedDeclarator_run (within.same ▸ further))
    (nestedDeclarator_run (Nat.lt_of_lt_of_le further c.last_le)) ?_
  refine .settle (Follows.firstReading followed ty here within)
    fun outer after run added _ => ?_
  obtain ⟨_, _, moved, run⟩ := bind_ok run
  rw [advance_run (within.same ▸ further)] at moved
  cases moved
  obtain ⟨trial, first, firstRun, run⟩ := bind_ok run
  obtain ⟨_, second, closing, _⟩ := bind_ok run
  have read := followed.closed .int state.next within.same further trial first firstRun
  have close := sees_of_expect closing
  have shown : first.pos < c.tokens.last :=
    lt_last c.sound.ended read.same (kind_ne_eof_of_isSymbol close)
  have ends (declared : Declarator) (last : State)
      (again : again.declarator outer { after with pos := state.pos + 1 } =
        .ok declared last) :
      last.pos ≤ first.pos ∧ c.tokens.strings (state.pos + 1) last.pos = [] := by
    have reread := followed.closed outer { after with pos := state.pos + 1 }
      added.within.same further declared last again
    refine ⟨TokenStream.le_of_nesting read.forward read.nested ?_ reread.nested,
      strings_of_nesting reread.nested⟩
    rw [← read.same]
    exact close
  rcases secondReading followed outer added.within further (.inr shown) ends with
    ⟨declared, last, ran, besideRan, reached, stays, named⟩ | failed
  · exact .inl ⟨declared, last, ran, besideRan, added.trans reached, stays, id, id, named⟩
  · exact .inr failed

/-- A declarator is named by a token that is shown. -/
theorem declarator (base : TyId) :
    Follows c low (.giving .peeking c.Names) (Grammar.declarator again base)
      (Grammar.declarator beside base) := by
  refine .position_bind fun start _ => .peek (.pointers base) fun ty => ?_
  refine .get_bind fun state within reached => ?_
  by_cases here : state.sees "(" = true
  · have further := lt_last c.sound.ended within.same (kind_ne_eof_of_isSymbol here)
    have weaker : (Mode.giving .peeking c.Names).Weaker (.giving .passing c.Names) :=
      ⟨fun _ never => never.elim, fun _ => id, fun _ => id⟩
    refine .weaken ?_ weaker
    refine .ahead (fun shown => by
      rw [(shown.mono (Nat.le_succ _)).sees within.same, Comparison.view_pos,
        shown.startsParameters within.same]) ?_
    refine .ite (fun _ => ?_) fun _ => ?_
    · exact .lead (nestedDeclarator followed here within _) fun declared named =>
        .pure id named
    · have noName : state.current.isIdentifier = false := Token.isIdentifier_eq_false here
      have besideName : (c.view state).current.isIdentifier = false := by
        rw [Comparison.Shown.current (.inr further) within.same]
        exact noName
      refine .congr (bind_run (identifier?_none noName))
        (bind_run (identifier?_none besideName)) ?_
      exact .lead (suffix_open followed here within ty) fun _ _ => .pure id nofun
  · have other : state.sees "(" = false := by simpa using here
    refine .here (fun shown => by
      rw [shown.sees within.same, other, Bool.false_and]) ?_
    rw [other, Bool.false_and]
    have named : Follows c state.pos (.giving .peeking c.Names)
        (do
          let name ← Grammar.identifier?
          return ⟨← Grammar.suffix again ty, name.map Prod.snd, start⟩)
        (do
          let name ← Grammar.identifier?
          return ⟨← Grammar.suffix beside ty, name.map Prod.snd, start⟩) :=
      .peek_gives .identifier? fun name given => .peek (.suffix followed ty) fun _ =>
        .pure id fun tok found => by
          obtain ⟨known, rfl, rfl⟩ := Option.map_eq_some_iff.mp found
          exact given known rfl
    exact named state within (Nat.le_refl _)

/-- The declarators up to a semicolon. -/
theorem declaratorList
    {start : σ} {extend besideExtend : σ -> Declarator -> Nat -> Parser σ}
    (each : ∀ low result declared tok, (c.tokens.get tok).isIdentifier = true ->
      Follows c low .peeking (extend result declared tok)
        (besideExtend result declared tok))
    (base : TyId) :
    Follows c low .closing (Grammar.declaratorList again base start extend)
      (Grammar.declaratorList beside base start besideExtend) :=
  .iterate (fun _ => True) trivial fun _ _ => .accept (.pure id trivial) <|
    .separated (.expect ",") fun _ => .peek_gives (.declarator followed base)
      fun _ named => .bind_gives (.requireName named) fun tok identifier =>
        .peek (each _ _ _ tok identifier) fun _ => .pure id trivial


/-! ## Specifiers -/

omit followed in
/-- An aggregate that a tag names. -/
theorem taggedAggregate (form : Form) (tag : String) (tok : Nat) :
    Follows c low .blind (Grammar.taggedAggregate form tag tok)
      (Grammar.taggedAggregate form tag tok) := by
  refine .get_bind fun state within reached => ?_
  rw [Comparison.view_scopes]
  cases state.scopes.lookupTag? tag with
  | none => exact Follows.failAt _ _ state within reached
  | some ty =>
      exact Follows.bind (.lookupTy ty)
        (fun _ => .ite (.pure id trivial) (.failAt _ _)) state within reached

omit followed in
/-- A tag is bound to the same enumeration. -/
theorem taggedEnum (tag : String) (tok : Nat) :
    Follows c low .blind (Grammar.taggedEnum tag tok) (Grammar.taggedEnum tag tok) := by
  refine .get_bind fun state within reached => ?_
  rw [Comparison.view_scopes]
  cases state.scopes.lookupTag? tag with
  | none => exact Follows.failAt _ _ state within reached
  | some ty =>
      exact Follows.bind (.lookupTy ty)
        (fun _ => .ite (.pure id trivial) (.failAt _ _)) state within reached

omit followed in
/-- A tag is bound in both streams. -/
theorem bindTag (tag : Option (String × Nat)) (ty : TyId) :
    Follows c low .blind (Grammar.bindTag tag ty) (Grammar.bindTag tag ty) := by
  unfold Grammar.bindTag
  split
  · exact .modifyScopes _
  · exact .pure id trivial

omit followed in
/-- A member is named by a token that is shown. -/
theorem addField (fields : List Field) (declared : Declarator) {tok : Nat}
    (identifier : (c.tokens.get tok).isIdentifier = true) :
    Follows c low .blind (Grammar.addField fields declared tok)
      (Grammar.addField fields declared tok) :=
  .bind (.lookupTy _) fun _ => .first_if (.failAt _ _) fun _ =>
    .get_bind fun state within reached => by
      rw [Comparison.Shown.token
        (.inr (Comparison.lt_last_of_identifier identifier)) within.same,
        Token.relocate_text]
      exact Follows.pure id trivial state within reached

omit followed in
/-- A constant has the same value. -/
theorem enumConstant (ty : TyId) (next : Option Int) :
    Follows c low .peeking (Grammar.enumConstant ty next)
      (Grammar.enumConstant ty next) := by
  have declared (low : Nat) (name : String) (value : Int) : Follows c low .blind
      (do
        Grammar.modifyScopes (·.declareVariable name (.enumConstant ty value))
        return Extent.add? value 1)
      (do
        Grammar.modifyScopes (·.declareVariable name (.enumConstant ty value))
        return Extent.add? value 1) :=
    .bind (.modifyScopes _) fun _ => .pure id trivial
  refine .close_gives .identifier fun named _ => .accept ?_ ?_
  · exact .close .number fun _ => .of_blind (declared _ _ _)
  · cases next with
    | some value => exact .bind (.pure id trivial) fun _ => .of_blind (declared _ _ _)
    | none => exact .bind (.failAt _ _) fun _ => .of_blind (declared _ _ _)

omit followed in
/-- The constants are closed by their brace. -/
theorem enumConstants (ty : TyId) :
    Follows c low .closing (Grammar.enumConstants ty) (Grammar.enumConstants ty) := by
  refine .iterate (fun _ => True) trivial fun _ _ =>
    .accept (.pure id trivial) (.ite ?_ ?_)
  · exact .peek (.enumConstant ty _) fun _ => .pure id trivial
  · exact .peek (.loose (.of_closing (.expect ","))) fun _ =>
      .accept (.pure id trivial) <| .peek (.enumConstant ty _) fun _ => .pure id trivial

omit followed in
theorem enumBody (tag : Option (String × Nat)) :
    Follows c low .closing (Grammar.enumBody tag) (Grammar.enumBody tag) :=
  .close (.expect _) fun _ => .bind (.enterTy (fun _ => rfl) nofun) fun _ =>
    .close (.enumConstants _) fun _ => .bind (.bindTag _ _) fun _ => .pure id trivial

omit followed in
/-- An enumeration has constants in both streams or in neither. -/
theorem enumeration :
    Follows c low .peeking Grammar.enumeration Grammar.enumeration := by
  refine .peek_gives .identifier? fun tag _ => .get_bind fun state within reached => ?_
  refine .here (fun shown => by rw [shown.sees within.same]) ?_
  split
  · exact Follows.of_blind (.taggedEnum _ _) state within reached
  · exact Follows.loose (.of_closing (.enumBody _)) state within reached

/-- The fields of an aggregate. -/
theorem fieldList :
    Follows c low .closing (Grammar.fieldList again) (Grammar.fieldList beside) :=
  .iterate (fun _ => True) trivial fun _ _ => .accept (.pure id trivial) <|
    .peek (followed.specifiers _ false) fun _ =>
      .close (.declaratorList followed
        (fun _ _ _ _ identifier => .of_blind (.addField _ _ identifier)) _) fun _ =>
          .pure id trivial

/-- The fields of a struct or union whose type has been entered. -/
theorem taggedFields
    (tag : Option (String × Nat)) (ty : TyId) :
    Follows c low .closing
      (do
        Grammar.bindTag tag ty
        return (ty, ← Grammar.fieldList again))
      (do
        Grammar.bindTag tag ty
        return (ty, ← Grammar.fieldList beside)) :=
  .bind (.bindTag _ _) fun _ => .close (.fieldList followed) fun _ => .pure id trivial

/-- A struct or union behind its opening brace.  Its type is entered with the body, so it
may be completed. -/
theorem bracedAggregate (form : Form) (tag : Option (String × Nat)) (brace : Nat) :
    Follows c low .closing
      (openAggregate again form tag brace >>= closeAggregate brace)
      (openAggregate beside form tag brace >>= closeAggregate brace) := by
  intro state within reached
  have entering (low : Nat) : Follows c low .blind
      (Grammar.enterTy (·.incomplete form brace))
      (Grammar.enterTy (·.incomplete form brace)) :=
    .enterTy (fun _ => rfl) nofun
  have opening : Follows c low .closing (Grammar.openAggregate again form tag brace)
      (Grammar.openAggregate beside form tag brace) :=
    .bind (entering _) fun id => .taggedFields followed tag id
  refine .settle (opening state within reached) fun ⟨id, fields⟩ after run added _ => ?_
  obtain ⟨entered, opened, entry, rest⟩ := bind_ok run
  have openedThere := (entering _ state within reached).added _ _ entry
  have listed := (taggedFields followed tag entered opened openedThere.within
    (Nat.zero_le _)).added _ _ rest
  obtain ⟨_, _, _, rest⟩ := bind_ok rest
  obtain ⟨_, _, _, done⟩ := bind_ok rest
  cases done
  cases entry
  have found := listed.begins.types _ _ (TypeTable.get?_insert_self state.program.types
    ⟨.aggregate form [], -1, 1, some brace⟩)
  cases known : after.program.types.complete
    ⟨state.program.types.entries.size⟩ fields with
  | ok types =>
      obtain ⟨_, layout, declToken, -, rfl⟩ := TypeTable.Consistent.complete_inv known
      refine .inl ⟨_, _, bind_run (completeTy_run known), bind_run (completeTy_run known),
        added.completed within (Nat.le_refl _) found rfl nofun, rfl, id, id,
        trivial⟩
  | error reason =>
      refine .inr ?_
      cases reason with
      | sizeOverflow =>
          refine ⟨_, _, bind_fail (completeTy_overflow known), fun whole => ?_⟩
          obtain ⟨last, failed⟩ := (@Follows.failAt c 0 Unit .blind brace
            (.typing .aggregateTooLarge) after added.within (Nat.zero_le _)).fails
              whole _ _ rfl
          exact ⟨last,
            bind_fail ((@completeTy_overflow (c.view after) _ _ _ known).trans failed)⟩
      | fault reason =>
          exact ⟨_, _, bind_fail (completeTy_fault known), fun _ =>
            ⟨_, bind_fail (completeTy_fault known)⟩⟩

/-- The members are closed by their brace. -/
theorem aggregateBody (form : Form)
    (tag : Option (String × Nat)) :
    Follows c low .closing (Grammar.aggregateBody again form tag)
      (Grammar.aggregateBody beside form tag) := by
  rw [aggregateBody_eq, aggregateBody_eq]
  exact .position_bind fun brace _ => .close (.expect _) fun _ =>
    (bracedAggregate followed form tag brace).weaken
      ⟨fun _ never => never.elim, fun _ => id, fun _ => id⟩

/-- A struct or union has members in both streams or in neither. -/
theorem aggregate (form : Form) :
    Follows c low .peeking (Grammar.aggregate again form)
      (Grammar.aggregate beside form) := by
  refine .peek_gives .identifier? fun tag _ => .get_bind fun state within reached => ?_
  refine .here (fun shown => by rw [shown.sees within.same]) ?_
  split
  · exact Follows.of_blind (.taggedAggregate _ _ _) state within reached
  · exact Follows.loose (.of_closing (.aggregateBody followed _ _)) state within reached

omit followed in
/-- A storage class at the cursor. -/
theorem storageClass (within : state.Within c.tokens)
    (starts : state.startsType state.pos = true) (allowed : Bool) (storage : Storage) :
    FollowsAt c state .closing (Grammar.storageClass allowed storage)
      (Grammar.storageClass allowed storage) := by
  refine .ite (fun _ => ?_) fun _ => .rejects within _
  refine .get_bind (.here (fun shown => by rw [shown.sees within.same]) ?_)
  exact .ite (fun _ => .rejects within _) fun _ =>
    .close (.advance within (State.lt_last_of_startsType c.sound.ended within.same starts)
      (State.string?_of_startsType starts)) fun _ _ => .pure id trivial

omit followed in
/-- A word of a primitive type at the cursor. -/
theorem typeWord (within : state.Within c.tokens)
    (starts : state.startsType state.pos = true) (seen : Specifiers) :
    FollowsAt c state .closing (Grammar.typeWord seen) (Grammar.typeWord seen) := by
  refine .get_bind ?_
  refine .here (fun shown => by rw [shown.current within.same, Token.relocate_text]) ?_
  split
  · exact failHere _ state within (Nat.zero_le _)
  · exact .close (.advance within
      (State.lt_last_of_startsType c.sound.ended within.same starts)
      (State.string?_of_startsType starts)) fun _ _ => .pure id trivial

/-- A named type at the cursor. -/
theorem namedTy
    (within : state.Within c.tokens) (starts : state.startsType state.pos = true)
    (typedef : Option TyId) :
    FollowsAt c state .peeking (Grammar.namedTy again typedef)
      (Grammar.namedTy beside typedef) := by
  have further := State.lt_last_of_startsType c.sound.ended within.same starts
  have plain := State.string?_of_startsType starts
  refine .accept within (.aggregate followed .struct) ?_
  refine .accept within (.aggregate followed .union) ?_
  refine .accept within .enumeration ?_
  exact .close (.advance within further plain) fun _ _ => .pure id trivial

/-- The words of a type are the same. -/
theorem specifiers (allowed : Bool) :
    Follows c low .peeking (Grammar.specifiers again allowed)
      (Grammar.specifiers beside allowed) := by
  refine .iterate (fun _ => True) trivial fun seen _ => .get_bind fun state within _ => ?_
  refine .here (fun shown => by
    rw [Comparison.view_pos, shown.startsType within.same, shown.sees within.same,
      shown.sees within.same, shown.sees within.same, shown.sees within.same,
      shown.sees within.same, shown.typedefAt? within.same]) ?_
  refine .ite (fun _ => Follows.pure id trivial state within (Nat.zero_le _))
    fun starts => ?_
  have starts : state.startsType state.pos = true := by simpa using starts
  refine .ite (fun _ => ?_) fun _ => .ite
    (fun _ => .ite (fun _ => ?_) fun _ => ?_) fun _ => ?_
  · exact .close (storageClass within starts _ _) fun _ _ => .pure id trivial
  · exact Follows.pure id trivial state within (Nat.zero_le _)
  · exact .peek (namedTy followed within starts _) fun _ _ _ added _ =>
      Follows.pure id trivial _ added.within (Nat.zero_le _)
  · exact .close (typeWord within starts _) fun _ _ => .pure id trivial

/-- A type name: the specifiers come with the declarator that names nothing. -/
theorem typeName :
    Follows c low .peeking (Grammar.typeName again) (Grammar.typeName beside) :=
  .peek (.specifiers followed false) fun _ =>
    .peek_gives (.declarator followed _) fun _ _ => .pure id trivial

end

end Follows
end Grammar
end MiniC
