import MiniC.Proofs.Grammar.Twins.Tables

/-!
# Twins of declarators and specifiers

A production that reads a type makes the same of its tokens at another place.  Of the
productions that it may call again this is assumed.

A declarator in parentheses is read twice.  The second reading ends no later than the
first, so it is followed although the cursor has gone back.
-/

namespace MiniC
namespace Grammar

variable {w : Window} {calm : Prop} {state there : State} {low : Nat} {α β σ : Type}

/-- A declarator whose name, if it has one, is an identifier. -/
def Window.Names (w : Window) : Declarator -> Prop := (Comparison.self w.sound).Names

/-- Productions that are followed by other productions.  Types and statements are followed
as far as the window is shown, expressions also up to the parenthesis that closes a calm
one. -/
structure Productions.Twin (w : Window) (calm : Prop)
    (again beside : Productions) : Prop where
  own : again.Followed (.self w.sound) again
  specifiers : ∀ low allowed,
    Twins w False low .peeking (again.specifiers allowed) (beside.specifiers allowed)
  declarator : ∀ low ty, Twins w False low (.giving .peeking w.Names)
    (again.declarator ty) (beside.declarator (carry w.names ty))
  suffix : ∀ low ty,
    Twins w False low .peeking (again.suffix ty) (beside.suffix (carry w.names ty))
  expr : ∀ low, Twins w calm low .passing again.expr beside.expr
  assign : ∀ low, Twins w calm low .passing again.assign beside.assign
  cast : ∀ low, Twins w calm low .passing again.cast beside.cast
  unary : ∀ low, Twins w calm low .passing again.unary beside.unary
  stmt : ¬ w.plain -> ∀ low, Twins w False low .passing again.stmt beside.stmt
  block : ¬ w.plain -> ∀ low, w.low < low ->
    Twins w False low .closing again.block beside.block

/-- A token that is known to stand at the cursor is skipped. -/
theorem TwinsAt.skip [Carried α] {mode : Mode α} {rest behind : Unit -> Parser α}
    (within : state.Within w.tokens) (more : state.current.kind ≠ .eof)
    (wordless : state.current.kind.string? = none)
    (twins : state.next.Within w.tokens ->
      TwinsAt w calm state.next there.next mode.landed (rest ()) (behind ())) :
    TwinsAt w calm state there mode (Grammar.advance >>= rest)
      (Grammar.advance >>= behind) := by
  have further := lt_last w.sound.ended within.same more
  exact .behind_token within more wordless
    (bind_run (advance_run (within.same ▸ further))) (fun linked shown => bind_run
      (advance_run (linked.tokens.symm ▸ shown.lt_last linked more)))
    (twins (Window.within_next within more))

/-- A symbol that is known to stand at the cursor is skipped. -/
theorem TwinsAt.skip_symbol [Carried α] {mode : Mode α} {rest behind : Unit -> Parser α}
    {symbol : String} (within : state.Within w.tokens) (here : state.sees symbol = true)
    (twins : state.next.Within w.tokens ->
      TwinsAt w calm state.next there.next mode.landed (rest ()) (behind ())) :
    TwinsAt w calm state there mode (Grammar.advance >>= rest)
      (Grammar.advance >>= behind) :=
  .skip within (kind_ne_eof_of_isSymbol here) (Token.string?_of_isSymbol here) twins

/-! ## Readings of a declarator -/

theorem secondReading_run {again : Productions} {inner : Nat} {outer : TyId}
    {declared : Declarator} {after : State} (near : inner ≤ state.tokens.last)
    (read : again.declarator outer { state with pos := inner } = .ok declared after)
    (back : state.pos ≤ after.tokens.last) :
    secondReading again inner outer state =
      .ok declared { after with pos := state.pos } := by
  have sought : seek inner state = .ok () { state with pos := inner } := by
    change EStateM.Result.ok () { state with pos := min inner state.tokens.last } = _
    rw [Nat.min_eq_left near]
  unfold secondReading
  rw [position_run, bind_run sought, bind_run read]
  change EStateM.Result.ok declared
    { after with pos := min state.pos after.tokens.last } = _
  rw [Nat.min_eq_left back]

theorem secondReading_fail {again : Productions} {inner : Nat}
    {outer : TyId} {error : Error} {after : State} (near : inner ≤ state.tokens.last)
    (failed : again.declarator outer { state with pos := inner } = .error error after) :
    secondReading again inner outer state = .error error after := by
  have sought : seek inner state = .ok () { state with pos := inner } := by
    change EStateM.Result.ok () { state with pos := min inner state.tokens.last } = _
    rw [Nat.min_eq_left near]
  unfold secondReading
  rw [position_run, bind_run sought, bind_fail failed]

/-- Words spell primitive types, which keep their references. -/
theorem TypeWord.spelled?_carry (names : Renaming) (words : List TypeWord) :
    carry names (TypeWord.spelled? words) = TypeWord.spelled? words := by
  have primitive : ∀ spelling ∈ TypeWord.spellings,
      spelling.2.index < TypeTable.initial.entries.size := by decide
  unfold TypeWord.spelled?
  cases found : TypeWord.spellings.find? fun spelling => spelling.1.isPerm words with
  | none => rfl
  | some spelling =>
      exact congrArg some (names.ty_primitive _ (primitive _ (List.mem_of_find?_eq_some
        found)))

theorem Specifiers.addWord?_carry (names : Renaming) (seen : Specifiers)
    (word : TypeWord) :
    (carry names seen).addWord? word = carry names (seen.addWord? word) := by
  have fixed := TypeWord.spelled?_carry names (word :: seen.words)
  unfold Specifiers.addWord?
  rw [show (carry names seen).hasNamed = seen.hasNamed from rfl,
    show (carry names seen).words = seen.words from rfl]
  cases seen.hasNamed with
  | true => rfl
  | false =>
      cases spelled : TypeWord.spelled? (word :: seen.words) with
      | none => rfl
      | some ty =>
          rw [spelled] at fixed
          have same : carry names ty = ty := Option.some.inj fixed
          exact congrArg (fun ty => some (⟨ty, word :: seen.words, false, seen.storage⟩ :
            Specifiers)) same.symm

/-- The token at which a type begins is skipped. -/
theorem TwinsAt.advance (within : state.Within w.tokens)
    (starts : state.startsType state.pos = true) :
    TwinsAt w calm state there .closing advance advance := by
  have more : state.current.kind ≠ .eof := by
    rcases State.word_of_startsType starts with ⟨word, here⟩ | here
    · exact kind_ne_eof_of_isSymbol here
    · exact kind_ne_eof_of_isIdentifier here
  have further := lt_last w.sound.ended within.same more
  have next := Window.within_next within more
  exact @TwinsAt.behind_token _ _ _ _ _ _ _ _ _ (Pure.pure ()) (Pure.pure ()) within more
    (State.string?_of_startsType starts) (advance_run (within.same ▸ further))
    (fun linked shown => advance_run (linked.tokens.symm ▸ shown.lt_last linked more))
    (.of_ok next rfl (.refl next) trivial (fun never => never.elim)
      fun linked _ => .inr ⟨_, rfl, linked⟩)

theorem completeTy_error {id : TyId} {fields : List Field} {tok : Nat}
    {reason : LayoutError}
    (known : state.program.types.complete id fields = .error reason) :
    ∃ error after, completeTy id fields tok state = .error error after := by
  cases reason with
  | sizeOverflow => exact ⟨_, _, completeTy_overflow known⟩
  | fault reason => exact ⟨_, _, completeTy_fault known⟩

/-- One round of the loop over the declarators up to a semicolon. -/
def declaratorRound (again : Productions) (base : TyId)
    (extend : σ -> Declarator -> Nat -> Parser σ) (current : Bool × σ) :
    Parser (Round (Bool × σ) σ) := do
  if ← accept ";" then
    return .done current.2
  else
    unless current.1 do
      expect ","
    let declared ← declarator again base
    let tok ← declared.requireName
    return .again (false, ← extend current.2 declared tok)

namespace Twins

/-! ## Declarators -/

theorem pointers (base : TyId) :
    Twins w False low .peeking (Grammar.pointers base)
      (Grammar.pointers (carry w.names base)) :=
  .iterate (fun _ => True) trivial fun _ _ =>
    .accept (fun _ => by decide) (.bind (.pointerTo _) fun _ => .pure id trivial)
      (.pure id trivial)

theorem parameterTy (ty : TyId) :
    Twins w calm low .blind (Grammar.parameterTy ty)
      (Grammar.parameterTy (carry w.names ty)) := by
  refine .bind (.lookupTy ty) fun ty => ?_
  obtain ⟨kind, _, _, _⟩ := ty
  cases kind with
  | array base length => exact .pointerTo base
  | _ => exact .pure False.elim trivial

/-- The name of a declarator is an identifier. -/
theorem requireName {declared : Declarator} (named : w.Names declared) :
    Twins w calm low (.giving .blind fun tok => (w.tokens.get tok).isIdentifier = true)
      declared.requireName (carry w.names declared).requireName := by
  obtain ⟨ty, name, start⟩ := declared
  cases name with
  | none => exact .failAt _ _ _ _
  | some tok => exact .pure id (named tok rfl)

section

variable {again beside : Productions} (twin : again.Twin w calm beside)

include twin

theorem parameter :
    Twins w False low (.giving .peeking (Comparison.self w.sound).NamesParam)
      (Grammar.parameter again) (Grammar.parameter beside) :=
  .peek (twin.specifiers _ false) fun _ => .peek_gives (twin.declarator _ _)
    fun _ named => .bind (.parameterTy _) fun _ => .pure id named

theorem parameters (result : TyId) :
    Twins w False low .passing (Grammar.parameters again result)
      (Grammar.parameters beside (carry w.names result)) := by
  refine .get_bind fun state there inside within reached => ?_
  refine .ahead (fun linked shown next => by
    rw [shown.sees linked, next.shown.seesAt linked]) ?_
  refine .ite Iff.rfl (fun emptyList => ?_) fun _ => ?_
  · have ⟨void, close⟩ := Bool.and_eq_true_iff.mp emptyList
    exact .skip_symbol within void fun within => .skip_symbol within close fun within =>
      Twins.of_blind (.enterFunction result fun _ never => by cases never)
        (Nat.le_trans inside reached) _ _ within (Nat.le_succ_of_le (Nat.le_succ _))
  · have listed : Twins w False low (.giving .closing fun params => Named w.tokens params)
        (Grammar.iterate [] fun params => do
          if ← Grammar.accept ")" then
            return .done params
          else
            unless params.isEmpty do
              Grammar.expect ","
            return .again (params ++ [← Grammar.parameter again]))
        (Grammar.iterate [] fun params => do
          if ← Grammar.accept ")" then
            return .done params
          else
            unless params.isEmpty do
              Grammar.expect ","
            return .again (params ++ [← Grammar.parameter beside])) :=
      .iterate (Named w.tokens) (fun _ never => by cases never) fun params named =>
        .accept False.elim (.pure id named) <| .separated (by simp [carry])
          (.expect ",") fun _ =>
          .peek_gives (.parameter twin) fun param also => .pure_of_eq id
            (fun other member => by
            rcases List.mem_append.mp member with before | last
            · exact named other before
            · obtain rfl := List.mem_singleton.mp last
              exact also) (by simp [Round.carried, carry])
    exact Twins.close_gives listed
      (fun params named => .of_blind (.enterFunction result named))
      inside state there within reached

theorem arraySuffix (ty : TyId) :
    Twins w False low .peeking (Grammar.arraySuffix again ty)
      (Grammar.arraySuffix beside (carry w.names ty)) :=
  .position_any fun tok also _ => .close .number fun _ =>
    .first_if Iff.rfl (.failAt _ _ _ _) fun _ => .close (.expect "]") fun _ =>
      .peek (twin.suffix _ ty) fun _ => .bind (.lookupTy _) fun _ =>
        .first_if (by simp) (.failAt _ _ _ _) fun _ =>
          .of_blind (.arrayOf _ _ tok also _ _)

theorem suffix (ty : TyId) :
    Twins w False low .peeking (Grammar.suffix again ty)
      (Grammar.suffix beside (carry w.names ty)) :=
  .accept (fun _ => by decide) (.loose (.parameters twin ty)) <|
    .accept (fun _ => by decide) (.arraySuffix twin ty) (.pure id trivial)

/-- The first reading of a declarator in parentheses ends at the closing one. -/
theorem firstReading (ty : TyId) (here : state.sees "(" = true)
    (within : state.Within w.tokens) (inside : w.low ≤ state.pos) :
    TwinsAt w False state there .passing (Grammar.firstReading again ty)
      (Grammar.firstReading beside (carry w.names ty)) := by
  have read (inner : TyId) (same : inner = carry w.names .int) :
      Twins w False (state.pos + 1) .peeking
        (do
          let _ ← again.declarator .int
          Grammar.expect ")"
          Grammar.suffix again ty)
        (do
          let _ ← beside.declarator inner
          Grammar.expect ")"
          Grammar.suffix beside (carry w.names ty)) := by
    subst same
    exact .peek_gives (twin.declarator _ .int) fun _ _ => .close (.expect ")") fun _ =>
      .suffix twin ty
  exact .skip_symbol within here fun within =>
    read .int w.names.int (Nat.le_succ_of_le inside) _ _ within (Nat.le_refl _)

/-- The second reading of a declarator ends before the first has ended, so it is followed
whatever is shown behind. -/
theorem secondReading {inner also : Nat} (outer : TyId) (within : state.Within w.tokens)
    (shift : also + w.low = inner + w.base) (inside : w.low ≤ inner)
    (cursor : inner ≤ state.pos) (ends : ∀ declared after,
      again.declarator outer { state with pos := inner } = .ok declared after ->
        after.pos < state.pos ∧ w.tokens.strings inner after.pos = []) :
    TwinsAt w False state there (.giving .blind w.Names)
      (Grammar.secondReading again inner outer)
      (Grammar.secondReading beside also (carry w.names outer)) := by
  have start : State.Within w.tokens { state with pos := inner } :=
    ⟨within.same, Nat.le_trans cursor within.cursor, within.types⟩
  have near : inner ≤ state.tokens.last := within.same ▸ start.cursor
  have reading :=
    twin.declarator w.low outer (Nat.le_refl _) _ { there with pos := also } start inside
  have begins (linked : w.Linked state there) :
      w.Linked { state with pos := inner } { there with pos := also } ∧
        also ≤ there.tokens.last := by
    have pos := linked.pos
    have last := linked.cursor
    refine ⟨⟨start, linked.tokens, ?_, inside, shift, linked.scopes, linked.function,
      linked.literals, linked.tables, fun plain => ?_⟩, ?_⟩
    · change also ≤ w.other.last
      omega
    · let rests := linked.rests plain
      exact ⟨rests.scopes, rests.symbols, rests.globals, rests.function, rests.literals⟩
    · rw [linked.tokens]
      omega
  cases run : again.declarator outer { state with pos := inner } with
  | ok declared after =>
      obtain ⟨before, none⟩ := ends declared after run
      have added := reading.own.added declared after run
      have back : state.pos ≤ after.tokens.last := added.within.same.symm ▸ within.cursor
      refine .of_ok within (secondReading_run near run back) (added.reread within none)
        (reading.own.gives declared after run) (fun never => never.elim)
          fun linked reaches => ?_
      obtain ⟨begun, alsoNear⟩ := begins linked
      rcases reading.agrees begun declared after run (reaches.imp_right fun ⟨at_, room⟩ =>
          ⟨.inl (by rcases at_ with further | ⟨same, -⟩ <;> dsimp only at * <;> omega),
            room⟩) with
        ⟨last, gaveUp⟩ | ⟨reached, alsoRun, linkedThere⟩
      · exact .inl ⟨last, secondReading_fail alsoNear gaveUp⟩
      · have alsoBack : there.pos ≤ reached.tokens.last :=
          linkedThere.tokens.symm ▸ linked.cursor
        refine .inr ⟨_, secondReading_run alsoNear alsoRun alsoBack,
          ⟨added.within.same, within.cursor, added.within.types⟩, linkedThere.tokens,
          linked.cursor, linked.reached, linked.pos, linkedThere.scopes,
            linkedThere.function,
          linkedThere.literals, linkedThere.tables, fun plain => ?_⟩
        let rests := linkedThere.rests plain
        exact ⟨rests.scopes, rests.symbols, rests.globals, rests.function, rests.literals⟩
  | error error after =>
      refine .of_error within (secondReading_fail near run) fun linked whole differs => ?_
      obtain ⟨begun, alsoNear⟩ := begins linked
      obtain ⟨why, last, failed⟩ := reading.fails begun whole error after run differs
      exact ⟨why, last, secondReading_fail alsoNear failed⟩

/-- A parameter list that has begun. -/
theorem suffix_open (here : state.sees "(" = true) (within : state.Within w.tokens)
    (inside : w.low ≤ state.pos) (ty : TyId) :
    TwinsAt w False state there .passing (Grammar.suffix again ty)
      (Grammar.suffix beside (carry w.names ty)) :=
  .accept_seen within inside here (.loose (.parameters twin ty))

/-- The two readings of a declarator in parentheses. -/
theorem nestedDeclarator (here : state.sees "(" = true) (within : state.Within w.tokens)
    (inside : w.low ≤ state.pos) (ty : TyId) :
    TwinsAt w False state there (.giving .passing w.Names)
      (Grammar.nestedDeclarator again ty)
      (Grammar.nestedDeclarator beside (carry w.names ty)) := by
  have more := kind_ne_eof_of_isSymbol here
  have further := lt_last w.sound.ended within.same more
  refine .of_linked (Follows.nestedDeclarator twin.own here within ty) fun linked => ?_
  have shift := linked.pos
  refine .shown (fun _ => trivial) (fun linked shown => nestedDeclarator_run
    (linked.tokens.symm ▸ shown.lt_last linked more)) ?_
  refine .congr within (nestedDeclarator_run (within.same ▸ further)) ?_
  refine @TwinsAt.bind _ _ _ _ _ _ _ _ _ _ (fun _ => .giving .blind w.Names) _ _ _ _
    (firstReading twin ty here within inside)
    (fun outer after reached run added _ passes => ?_)
    fun _ _ => ⟨fun _ _ _ => .inl trivial, fun _ _ never => never.elim, fun _ => id⟩
  obtain ⟨_, _, moved, run⟩ := bind_ok run
  rw [advance_run (within.same ▸ further)] at moved
  cases moved
  obtain ⟨trial, first, firstRun, run⟩ := bind_ok run
  obtain ⟨_, second, closing, suffixRun⟩ := bind_ok run
  have next := Window.within_next within more
  have readTrial := (twin.own.declarator 0 .int _ next (Nat.zero_le _)).added _ _ firstRun
  have closed :=
    Follows.expect (c := .self w.sound) ")" first readTrial.within (Nat.zero_le _)
  have passed := closed.passes _ _ closing trivial
  have forward := ((Follows.suffix twin.own ty second (closed.added _ _ closing).within
    (Nat.zero_le _)).added _ _ suffixRun).forward
  have read := twin.own.closed .int state.next within.same further trial first firstRun
  have close := sees_of_expect closing
  refine secondReading twin outer added.within (by omega) (by omega) (passes trivial)
    fun declared last again => ?_
  have reread := twin.own.closed outer { after with pos := state.pos + 1 }
    added.within.same further declared last again
  refine ⟨Nat.lt_of_le_of_lt
    (TokenStream.le_of_nesting read.forward read.nested ?_ reread.nested)
    (Nat.lt_of_lt_of_le passed forward), strings_of_nesting reread.nested⟩
  rw [State.sees, State.seesAt, State.token, read.same] at close
  exact close

theorem declarator (base : TyId) :
    Twins w False low (.giving .peeking w.Names) (Grammar.declarator again base)
      (Grammar.declarator beside (carry w.names base)) := by
  refine .position_bind fun start also _ placed => .peek (.pointers base) fun ty => ?_
  refine .get_bind fun state there within_ within reached => ?_
  have inside := Nat.le_trans within_ reached
  have begun {later : Nat} (behind : start ≤ later) (shown : w.Shown later) :
      also = w.names.token start :=
    (placed (shown.imp_right fun before => Nat.lt_of_le_of_lt behind before)).1
  by_cases here : state.sees "(" = true
  · have weaker : (Mode.giving .peeking w.Names).Weaker (.giving .passing w.Names) :=
      ⟨fun _ never => never.elim, fun _ => id, fun _ => id⟩
    refine .weaken ?_ weaker
    refine .ahead (fun linked shown next => by
      rw [shown.sees linked, State.startsParameters, next.shown.seesAt linked,
        next.shown.startsType linked]) ?_
    refine .ite Iff.rfl (fun _ => ?_) fun _ => ?_
    · exact .lead (nestedDeclarator twin here within inside ty) (fun declared named _ =>
        .pure_shown id named fun shown => by
          rw [begun (Nat.le_succ_of_le reached) shown]
          rfl) inside
    · have nameless : state.current.isIdentifier = false :=
        Token.isIdentifier_eq_false here
      refine .shown (fun _ => trivial) (fun linked shown => bind_run
        (identifier?_none ((shown.isIdentifier linked).trans nameless))) ?_
      refine .congr within (bind_run (identifier?_none nameless)) ?_
      exact .lead (suffix_open twin here within inside ty) (fun _ _ _ =>
        .pure_shown id nofun fun shown => by
          rw [begun (Nat.le_succ_of_le reached) shown]
          rfl) inside
  · have other : state.sees "(" = false := by simpa using here
    have named : Twins w False state.pos (.giving .peeking w.Names)
        (do
          let name ← Grammar.identifier?
          return ⟨← Grammar.suffix again ty, name.map Prod.snd, start⟩)
        (do
          let name ← Grammar.identifier?
          return ⟨← Grammar.suffix beside (carry w.names ty), name.map Prod.snd, also⟩) :=
      .peek_gives .identifier? fun name given => .peek (.suffix twin ty) fun _ =>
        .pure_shown id (fun tok found => by
          obtain ⟨known, rfl, rfl⟩ := Option.map_eq_some_iff.mp found
          exact given known rfl) fun shown => by
            rw [begun reached shown]
            cases name <;> rfl
    have reads := named inside state there within (Nat.le_refl _)
    rw [other]
    refine reads.here fun linked faces => ?_
    rw [faces.shown.sees linked, other]
    rfl

/-- One round of the loop over the declarators up to a semicolon. -/
theorem declaratorRound [Carried σ]
    {extend besideExtend : σ -> Declarator -> Nat -> Parser σ}
    (each : ∀ low result declared tok, (w.tokens.get tok).isIdentifier = true ->
      Twins w False low .peeking (extend result declared tok)
        (besideExtend (carry w.names result) (carry w.names declared)
          (carry w.names tok)))
    (base : TyId) (current : Bool × σ) :
    Twins w False low (.round (fun _ => True) .closing)
      (Grammar.declaratorRound again base extend current)
      (Grammar.declaratorRound beside (carry w.names base) besideExtend
        (carry w.names current)) :=
  .accept (fun _ => by decide) (.pure id trivial) <|
    .separated Iff.rfl (.expect ",") fun _ => .peek_gives (.declarator twin base)
      fun _ named => .bind_gives (.requireName named) fun tok identifier =>
        .peek (each _ _ _ tok identifier) fun _ => .pure id trivial

/-- The declarators up to a semicolon. -/
theorem declaratorList [Carried σ] {start : σ}
    {extend besideExtend : σ -> Declarator -> Nat -> Parser σ}
    (each : ∀ low result declared tok, (w.tokens.get tok).isIdentifier = true ->
      Twins w False low .peeking (extend result declared tok)
        (besideExtend (carry w.names result) (carry w.names declared)
          (carry w.names tok)))
    (base : TyId) :
    Twins w False low .closing (Grammar.declaratorList again base start extend)
      (Grammar.declaratorList beside (carry w.names base)
        (carry w.names start) besideExtend) :=
  .iterate (fun _ => True) trivial fun current _ =>
    .declaratorRound twin each base current

/-! ## Specifiers -/

omit twin in
/-- An aggregate that a tag names. -/
theorem taggedAggregate (form : Form) (tag : String) (tok also : Nat) :
    Twins w calm low .blind (Grammar.taggedAggregate form tag tok)
      (Grammar.taggedAggregate form tag also) := by
  refine .get_bind fun state there inside within reached => ?_
  have named (ty : TyId) : Twins w calm low .blind
      (do
        if (← Grammar.lookupTy ty).isAggregate then
          return ty
        else
          Grammar.failAt tok (.naming (unknownTag form)))
      (do
        if (← Grammar.lookupTy (carry w.names ty)).isAggregate then
          return carry w.names ty
        else
          Grammar.failAt also (.naming (unknownTag form))) :=
    .bind (.lookupTy ty) fun _ => .ite (by simp) (.pure id trivial) (.failAt _ _ _ _)
  cases known : state.scopes.lookupTag? tag with
  | none =>
      refine (Twins.failAt (α := TyId) tok also _ (.naming (unknownTag form))
        inside state there within reached).swap fun linked _ => ?_
      rw [linked.scopes, Scopes.lookupTag?_carry, known]
      rfl
  | some ty =>
      refine (named ty inside state there within reached).swap fun linked _ => ?_
      rw [linked.scopes, Scopes.lookupTag?_carry, known]
      rfl

omit twin in
theorem taggedEnum (tag : String) (tok also : Nat) :
    Twins w calm low .blind (Grammar.taggedEnum tag tok)
      (Grammar.taggedEnum tag also) := by
  refine .get_bind fun state there inside within reached => ?_
  have named (ty : TyId) : Twins w calm low .blind
      (do
        if (← Grammar.lookupTy ty).isEnum then
          return ty
        else
          Grammar.failAt tok (.naming .unknownEnum))
      (do
        if (← Grammar.lookupTy (carry w.names ty)).isEnum then
          return carry w.names ty
        else
          Grammar.failAt also (.naming .unknownEnum)) :=
    .bind (.lookupTy ty) fun _ => .ite (by simp) (.pure id trivial) (.failAt _ _ _ _)
  cases known : state.scopes.lookupTag? tag with
  | none =>
      refine (Twins.failAt (α := TyId) tok also _ (.naming .unknownEnum) inside
        state there within reached).swap fun linked _ => ?_
      rw [linked.scopes, Scopes.lookupTag?_carry, known]
      rfl
  | some ty =>
      refine (named ty inside state there within reached).swap fun linked _ => ?_
      rw [linked.scopes, Scopes.lookupTag?_carry, known]
      rfl

omit twin in
theorem addField (fields : List Field) (declared : Declarator) {tok : Nat}
    (identifier : (w.tokens.get tok).isIdentifier = true) :
    Twins w calm low .blind (Grammar.addField fields declared tok)
      (Grammar.addField (carry w.names fields) (carry w.names declared)
        (carry w.names tok)) := by
  refine .bind (.lookupTy _) fun _ => .first_if (by simp) (.failAt _ _ _ _) fun _ =>
    .get_bind fun state there inside within reached => ?_
  have listed : Twins w calm low .blind
      (Pure.pure (fields ++ [⟨(state.token tok).text, declared.ty, tok⟩]))
      (Pure.pure (carry w.names
        (fields ++ [⟨(state.token tok).text, declared.ty, tok⟩]))) :=
    .pure id trivial
  refine (listed inside state there within reached).swap fun linked _ => ?_
  rw [linked.text identifier, show carry w.names (fields ++ [_]) = _ from List.map_append]
  rfl

section

variable (braced : ¬ w.plain)

include braced

omit twin in
theorem bindTag (tag : Option (String × Nat)) (ty : TyId) :
    Twins w calm low .blind (Grammar.bindTag tag ty)
      (Grammar.bindTag (carry w.names tag) (carry w.names ty)) := by
  cases tag with
  | none => exact .pure id trivial
  | some tag =>
      change Twins w calm low .blind (Grammar.modifyScopes (·.declareTag tag.1 ty))
        (Grammar.modifyScopes (·.declareTag tag.1 (carry w.names ty)))
      exact .modifyScopes braced fun scopes =>
        (Scopes.carry_declareTag w.names scopes tag.1 ty).symm

omit twin in
theorem enumConstant (ty : TyId) (next : Option Int) :
    Twins w False low .peeking (Grammar.enumConstant ty next)
      (Grammar.enumConstant (carry w.names ty) (carry w.names next)) := by
  have declared (low : Nat) (name : String) (value : Int) : Twins w False low .blind
      (do
        Grammar.modifyScopes (·.declareVariable name (.enumConstant ty value))
        return Extent.add? value 1)
      (do
        Grammar.modifyScopes (·.declareVariable name
          (.enumConstant (carry w.names ty) value))
        return Extent.add? value 1) :=
    .bind (.modifyScopes braced fun scopes =>
      (Scopes.carry_declareVariable _ scopes _ (.enumConstant ty value)).symm) fun _ =>
        .pure_of_eq id trivial (by cases Extent.add? value 1 <;> rfl)
  refine .close_gives .identifier fun named _ => .accept (fun _ => by decide) ?_ ?_
  · exact .close .number fun _ => .of_blind (declared _ _ _)
  · cases next with
    | some value => exact .bind (.pure id trivial) fun _ => .of_blind (declared _ _ _)
    | none => exact .bind (.failAt _ _ _ _) fun _ => .of_blind (declared _ _ _)

omit twin in
theorem enumConstants (ty : TyId) :
    Twins w False low .closing (Grammar.enumConstants ty)
      (Grammar.enumConstants (carry w.names ty)) := by
  refine .iterate (fun _ => True) trivial fun ⟨first, next⟩ _ =>
    .accept (fun _ => by decide) (.pure id trivial) (.ite Iff.rfl ?_ ?_)
  · exact .peek (.enumConstant braced ty next) fun _ => .pure id trivial
  · exact .peek (.loose (.of_closing (.expect ","))) fun _ =>
      .accept (fun _ => by decide) (.pure id trivial) <|
        .peek (.enumConstant braced ty next) fun _ => .pure id trivial

omit twin in
/-- The body of an enum that is read where braces may stand. -/
theorem enumBody_braced (tag : Option (String × Nat)) :
    Twins w False low .closing (Grammar.enumBody tag)
      (Grammar.enumBody (carry w.names tag)) :=
  .close (.expect _) fun _ => .bind (.enterTy (fun _ => rfl) (fun _ => rfl) nofun)
    fun _ =>
    .close (.enumConstants braced _) fun _ => .bind (.bindTag braced _ _) fun _ =>
      .pure id trivial

omit braced in
/-- The fields of an aggregate. -/
theorem fieldList :
    Twins w False low .closing (Grammar.fieldList again) (Grammar.fieldList beside) :=
  .iterate (fun _ => True) trivial fun _ _ => .accept (fun _ => by decide)
    (.pure id trivial) <| .peek (twin.specifiers _ false) fun _ =>
      .close (.declaratorList twin
        (fun _ _ _ _ identifier => .of_blind (.addField _ _ identifier)) _)
        fun _ => .pure id trivial

/-- A struct or union behind its opening brace. -/
theorem bracedAggregate (form : Form) (tag : Option (String × Nat)) {brace also : Nat}
    (placed : w.Placed low brace also) :
    Twins w False low .closing
      (openAggregate again form tag brace >>= closeAggregate brace)
      (openAggregate beside form (carry w.names tag) also >>= closeAggregate also) := by
  intro inside state there within reached
  have own := Follows.bracedAggregate twin.own form tag brace state within reached
  refine .of_reaching own reached fun reaches => ?_
  obtain ⟨rfl, -⟩ := placed reaches
  have opening : Twins w False low .closing (openAggregate again form tag brace)
      (openAggregate beside form (carry w.names tag) (w.names.token brace)) :=
    .bind (.enterTy (fun _ => rfl) (fun _ => rfl) nofun) fun _ =>
      .bind (.bindTag braced _ _) fun _ => .close (.fieldList twin) fun _ =>
        .pure id trivial
  refine .settle own (opening inside state there within reached) ?_ ?_
  · intro ⟨id, fields⟩ after result last _ run
    cases known : after.program.types.complete id fields with
    | ok types =>
        obtain ⟨_, layout, declToken, -, rfl⟩ := TypeTable.Consistent.complete_inv known
        cases (bind_run (completeTy_run known)).symm.trans run
        exact ⟨rfl, Array.size_setIfInBounds, rfl, fun _ => trivial⟩
    | error reason =>
        obtain ⟨error, failing, failed⟩ := @completeTy_error _ _ _ brace _ known
        cases (bind_fail failed).symm.trans run
  · intro ⟨id, fields⟩ after beyond opened linked
    refine ⟨fun result last run => ?_, fun whole error last run _ => ?_⟩
    · have within := (own.added result last ((bind_run opened).trans run)).within
      cases known : after.program.types.complete id fields with
      | ok types =>
          cases (bind_run (completeTy_run known)).symm.trans run
          obtain ⟨others, alsoKnown, tables⟩ := linked.tables.complete braced known
          exact .inr ⟨_, bind_run (completeTy_run alsoKnown), linked.enter within tables⟩
      | error reason =>
          obtain ⟨error, failing, failed⟩ := @completeTy_error _ _ _ brace _ known
          cases (bind_fail failed).symm.trans run
    · cases known : after.program.types.complete id fields with
      | ok types => cases (bind_run (completeTy_run known)).symm.trans run
      | error reason =>
          obtain ⟨also, alsoKnown⟩ := linked.tables.complete_error whole known
          obtain ⟨error, failing, failed⟩ :=
            @completeTy_error _ _ _ (w.names.token brace) _ alsoKnown
          exact ⟨error, failing, bind_fail failed⟩

end

/-- The body of a struct or union.  In a plain window there is none. -/
theorem aggregateBody (form : Form) (tag : Option (String × Nat)) :
    Twins w False low .closing (Grammar.aggregateBody again form tag)
      (Grammar.aggregateBody beside form (carry w.names tag)) := by
  by_cases plain : w.plain
  · intro inside state there within reached
    have own := Follows.aggregateBody twin.own form tag state within reached
    refine @TwinsAt.unbraced _ _ _ _ _ _ _ _ _ 0 plain within own fun value after run =>
      ⟨?_, own.passes value after run trivial⟩
    obtain ⟨_, _, ⟨⟩, run⟩ := bind_ok run
    obtain ⟨_, _, opening, _⟩ := bind_ok run
    exact sees_of_expect opening
  · rw [aggregateBody_eq, aggregateBody_eq]
    exact .position_bind fun brace also _ placed => .close (.expect _) fun _ =>
      (bracedAggregate twin plain form tag placed).weaken
        ⟨fun _ never => never.elim, fun _ => id, fun _ => id⟩

theorem aggregate (form : Form) :
    Twins w False low .peeking (Grammar.aggregate again form)
      (Grammar.aggregate beside form) := by
  refine .peek_gives .identifier? fun tag _ => .get_bind
    fun state there inside within reached => ?_
  refine .here (fun linked faces => by rw [faces.shown.sees linked]) ?_
  cases tag with
  | none =>
      exact Twins.loose (.of_closing (.aggregateBody twin form none))
        inside state there within reached
  | some named =>
      cases state.sees openBrace with
      | false =>
          exact Twins.of_blind (.taggedAggregate form _ _ _) inside state there
            within reached
      | true =>
          exact Twins.loose (.of_closing (.aggregateBody twin form (some named)))
            inside state there within reached

omit twin in
theorem enumBody (tag : Option (String × Nat)) :
    Twins w False low .closing (Grammar.enumBody tag)
      (Grammar.enumBody (carry w.names tag)) := by
  by_cases plain : w.plain
  · intro inside state there within reached
    have own := Follows.enumBody (c := .self w.sound) tag state within reached
    refine @TwinsAt.unbraced _ _ _ _ _ _ _ _ _ 0 plain within own fun value after run =>
      ⟨?_, own.passes value after run trivial⟩
    obtain ⟨_, _, opening, _⟩ := bind_ok run
    exact sees_of_expect opening
  · exact .enumBody_braced plain tag

omit twin in
theorem enumeration :
    Twins w False low .peeking Grammar.enumeration Grammar.enumeration := by
  refine .peek_gives .identifier? fun tag _ => .get_bind
    fun state there inside within reached => ?_
  refine .here (fun linked faces => by rw [faces.shown.sees linked]) ?_
  cases tag with
  | none =>
      exact Twins.loose (.of_closing (.enumBody none)) inside state there within reached
  | some named =>
      cases state.sees openBrace with
      | false =>
          exact Twins.of_blind (.taggedEnum _ _ _) inside state there within reached
      | true =>
          exact Twins.loose (.of_closing (.enumBody (some named))) inside state there
            within reached

omit twin in
/-- A storage class at the cursor. -/
theorem storageClass (within : state.Within w.tokens) (inside : w.low ≤ state.pos)
    (starts : state.startsType state.pos = true) (allowed : Bool) (storage : Storage) :
    TwinsAt w False state there .closing (Grammar.storageClass allowed storage)
      (Grammar.storageClass allowed storage) := by
  refine .ite Iff.rfl (fun _ => ?_) fun _ => .rejects within _ _
  refine .get_bind within (.here (fun linked faces => by rw [faces.shown.sees linked]) ?_)
  exact .ite Iff.rfl (fun _ => .rejects within _ _) fun _ =>
    .close (.advance within starts) (fun _ _ _ => .pure id trivial) inside

omit twin in
/-- A word of a primitive type at the cursor. -/
theorem typeWord (within : state.Within w.tokens) (inside : w.low ≤ state.pos)
    (starts : state.startsType state.pos = true) (seen : Specifiers) :
    TwinsAt w False state there .closing (Grammar.typeWord seen)
      (Grammar.typeWord (carry w.names seen)) := by
  refine .get_bind within (.here (fun linked faces => by rw [faces.shown.text linked]) ?_)
  have same : (TypeWord.ofText? state.current.text).bind (carry w.names seen).addWord? =
      carry w.names ((TypeWord.ofText? state.current.text).bind seen.addWord?) := by
    cases TypeWord.ofText? state.current.text with
    | none => rfl
    | some word => exact seen.addWord?_carry w.names word
  rw [same]
  cases (TypeWord.ofText? state.current.text).bind seen.addWord? with
  | none => exact .of_errors within rfl rfl
  | some extended =>
      exact .close (.advance within starts) (fun _ _ _ => .pure id trivial) inside

/-- A named type at the cursor. -/
theorem namedTy (within : state.Within w.tokens) (inside : w.low ≤ state.pos)
    (starts : state.startsType state.pos = true) (typedef : Option TyId) :
    TwinsAt w False state there .peeking (Grammar.namedTy again typedef)
      (Grammar.namedTy beside (carry w.names typedef)) := by
  refine .accept within inside (fun _ => by decide) (.aggregate twin .struct) ?_
  refine .accept within inside (fun _ => by decide) (.aggregate twin .union) ?_
  refine .accept within inside (fun _ => by decide) .enumeration ?_
  refine .close (.advance within starts) (fun _ _ _ => .pure_of_eq id trivial ?_) inside
  cases typedef with
  | none => exact w.names.int
  | some ty => rfl

theorem specifiers (allowed : Bool) :
    Twins w False low .peeking (Grammar.specifiers again allowed)
      (Grammar.specifiers beside allowed) := by
  refine .iterate_of_eq (fun _ => True) trivial
    (congrArg (Specifiers.mk · [] false ⟨false, false⟩) w.names.int)
    fun seen _ => .get_bind fun state there inside within reached => ?_
  have inside_ := Nat.le_trans inside reached
  have named : (carry w.names (state.typedefAt? state.pos)).isSome =
      (state.typedefAt? state.pos).isSome := by
    cases state.typedefAt? state.pos <;> rfl
  refine .here (fun linked faces => by
    have shown := faces.shown
    have starts : there.startsType there.pos = state.startsType state.pos :=
      @Window.Shown.startsType _ _ _ 0 linked shown
    have typedef :
        there.typedefAt? there.pos = carry w.names (state.typedefAt? state.pos) :=
      @Window.Shown.typedefAt? _ _ _ 0 linked shown
    rw [starts, shown.sees linked, shown.sees linked, shown.sees linked,
      shown.sees linked, shown.sees linked, typedef]) ?_
  refine .ite Iff.rfl (fun _ => Twins.pure id trivial inside state there within reached)
    fun starts => ?_
  have starts : state.startsType state.pos = true := by simpa using starts
  refine .ite Iff.rfl (fun _ => ?_) fun _ => .ite (by rw [named])
    (fun _ => .ite Iff.rfl (fun _ => ?_) fun _ => ?_) fun _ => ?_
  · exact .close (storageClass within inside_ starts _ _)
      (fun _ _ _ => .pure id trivial) inside_
  · exact Twins.pure id trivial inside state there within reached
  · exact .peek (namedTy twin within inside_ starts _) fun _ _ _ _ added _ =>
      Twins.pure id trivial inside _ _ added.within (Nat.le_trans reached added.forward)
  · exact .close (typeWord within inside_ starts _)
      (fun _ _ _ => .pure id trivial) inside_

/-- A type name: the specifiers come with the declarator that names nothing. -/
theorem typeName :
    Twins w False low .peeking (Grammar.typeName again) (Grammar.typeName beside) :=
  .peek (.specifiers twin false) fun _ =>
    .peek_gives (.declarator twin _) fun _ _ => .pure id trivial

end
end Twins
end Grammar
end MiniC
