import MiniC.Proofs.Declarator.Derivation

/-!
# Parameter lists

What stands between the parentheses of a parameter list that is accepted: nothing, the
word `void` alone, or parameters with a comma between each two, one for each parameter of
the function type.

A parameter is specifiers and a declarator.  Both may be empty, so the commas alone make
parameters: one without specifiers has a type made of `int`.
-/

namespace MiniC
namespace Grammar

open Declarators (paramsRound parameters_run)

variable {again : Productions} {state middle after : State}

/-! ## What is read -/

/-- The specifiers that stand at an index: at least one where a type name begins, and none
elsewhere. -/
def State.specifiersAt (state : State) (index : Nat) : List Item :=
  if state.startsType index then [.phrase .specifier, .phrase .specifiers] else []

/-- One parameter is read from its specifiers and its declarator. -/
def ReadsParameter (again : Productions) (before : State) (param : Param)
    (after : State) :
    Prop :=
  ∃ base middle declared behind,
    again.specifiers false before = .ok base middle ∧
    again.declarator base.1 middle = .ok declared behind ∧
    parameterTy declared.ty behind = .ok param.ty after ∧
    param.name = declared.name ∧
    after.tokens = before.tokens ∧
    Derives before.tokens (before.specifiersAt before.pos) before.pos middle.pos ∧
    Derives before.tokens [.phrase .declarator] middle.pos after.pos ∧
    (before.startsType before.pos = false -> base.1 = .int)

theorem ReadsParameter.sameTokens {param : Param}
    (read : ReadsParameter again state param after) :
    after.tokens = state.tokens := by
  obtain ⟨_, _, _, _, _, _, _, _, same, -⟩ := read
  exact same

/-- A parameter that begins a type name has specifiers. -/
theorem ReadsParameter.specified {param : Param}
    (read : ReadsParameter again state param after)
    (starts : state.startsType state.pos = true) :
    Derives state.tokens [.phrase .specifier, .phrase .specifiers, .phrase .declarator]
      state.pos after.pos := by
  obtain ⟨_, _, _, _, _, _, _, _, _, specifiers, declarator, -⟩ := read
  rw [State.specifiersAt, if_pos starts] at specifiers
  exact specifiers.append declarator

/-- Parameters, each with the state in front of it, are read up to the closing parenthesis
with a comma between each two. -/
inductive ReadsList (again : Productions) : State -> List (State × Param) -> State -> Prop
  | last {before after : State} {param : Param}
      (one : ReadsParameter again before param after) (closes : after.sees ")" = true) :
      ReadsList again before [(before, param)] after.next
  | more {before middle after : State} {param : Param} {others : List (State × Param)}
      (one : ReadsParameter again before param middle) (comma : middle.sees "," = true)
      (behind : ReadsList again middle.next others after) :
      ReadsList again before ((before, param) :: others) after

/-- What stands behind the opening parenthesis of a parameter list. -/
inductive ReadsParameters (again : Productions) (state : State) :
    List (State × Param) -> State -> Prop
  | none (closes : state.sees ")" = true) : ReadsParameters again state [] state.next
  | void (void : state.sees "void" = true) (closes : state.next.sees ")" = true) :
      ReadsParameters again state [] state.next.next
  | list {elements : List (State × Param)} {after : State}
      (read : ReadsList again state elements after) :
      ReadsParameters again state elements after

/-- A number of parameters up to the closing parenthesis, each with at least one
specifier. -/
inductive SpecifiedList (tokens : TokenStream) : Nat -> Nat -> Nat -> Prop
  | last {start stop : Nat}
      (one : Derives tokens
        [.phrase .specifier, .phrase .specifiers, .phrase .declarator] start stop)
      (closes : (tokens.get stop).isSymbol ")" = true) :
      SpecifiedList tokens start 1 (stop + 1)
  | more {start middle stop count : Nat}
      (one : Derives tokens
        [.phrase .specifier, .phrase .specifiers, .phrase .declarator] start middle)
      (comma : (tokens.get middle).isSymbol "," = true)
      (others : SpecifiedList tokens (middle + 1) count stop) :
      SpecifiedList tokens start (count + 1) stop

/-- A parameter list for a number of parameters in which each has at least one
specifier. -/
def SpecifiedParameters (tokens : TokenStream) (start count stop : Nat) : Prop :=
  (count = 0 ∧ Derives tokens [.symbol ")"] start stop) ∨
    (count = 0 ∧ Derives tokens [.symbol "void", .symbol ")"] start stop) ∨
      SpecifiedList tokens start count stop

/-! ## One parameter -/

/-- The productions read no specifiers where no type name begins. -/
theorem productions_specifiers_of_not_startsType {depth : Nat} {read : TyId × Storage}
    (other : state.startsType state.pos = false)
    (run : (productions depth).specifiers false state = .ok read after) :
    read.1 = .int ∧ after = state := by
  cases depth with
  | zero => cases run
  | succ depth =>
      cases (specifiers_run_of_not_startsType other).symm.trans run
      exact ⟨rfl, rfl⟩

/-- The productions read the specifiers that stand at the cursor. -/
theorem productions_read_specifiersAt
    (ended : state.tokens.eof.kind = .eof) (depth : Nat) :
    ConsumesAt state.tokens state (state.specifiersAt state.pos)
      ((productions depth).specifiers false) fun _ => [] := by
  unfold State.specifiersAt
  split
  · rename_i starts
    cases depth with
    | zero => exact Consumes.of_error (fun _ => ⟨_, _, rfl⟩) state
    | succ depth => exact .specifiers (productions_derivable ended depth) ended starts
  · rename_i other
    intro own cursor read after run
    obtain ⟨-, rfl⟩ := productions_specifiers_of_not_startsType (by simpa using other) run
    exact ⟨own, cursor, fun _ left => left⟩

theorem parameter_ok {depth : Nat} {param : Param} (ended : state.tokens.eof.kind = .eof)
    (inside : state.pos ≤ state.tokens.last)
    (run : parameter (productions depth) state = .ok param after) :
    ReadsParameter (productions depth) state param after ∧
    after.pos ≤ state.tokens.last := by
  obtain ⟨base, middle, specified, run⟩ := bind_ok run
  obtain ⟨declared, behind, declares, run⟩ := bind_ok run
  obtain ⟨ty, last, decays, done⟩ := bind_ok run
  cases done
  obtain ⟨sameMiddle, insideMiddle, derivesBase⟩ :=
    productions_read_specifiersAt ended depth rfl inside _ _ specified
  obtain ⟨sameBehind, insideBehind, derivesDeclarator⟩ :=
    (productions_derivable ended depth).declarator base.1 middle sameMiddle
      insideMiddle _ _ declares
  obtain ⟨sameLast, stays⟩ := Still.parameterTy declared.ty behind _ _ decays
  refine ⟨⟨base, middle, declared, behind, specified, declares, decays, rfl,
    sameLast.trans sameBehind, derivesBase middle.pos .nil, ?_, fun other => ?_⟩,
    stays ▸ insideBehind⟩
  · rw [stays]
    exact derivesDeclarator behind.pos .nil
  · exact (productions_specifiers_of_not_startsType other specified).1

/-! ## The list -/

theorem expect_ok {symbol : String} {value : Unit}
    (run : expect symbol state = .ok value after) :
    state.sees symbol = true ∧ after = state.next := by
  by_cases here : state.sees symbol = true
  · rw [expect_run here] at run
    cases run
    exact ⟨here, rfl⟩
  · change (accept symbol >>= _) state = _ at run
    rw [bind_run (accept_of_not_sees (by simpa using here))] at run
    cases run

/-- Behind a parameter the list is closed, or a comma separates it from the next. -/
theorem following_ok {depth bound : Nat} {before params : List Param}
    (ended : state.tokens.eof.kind = .eof) (inside : state.pos ≤ state.tokens.last)
    (nonempty : before ≠ [])
    (run : iterateFor (paramsRound (productions depth)) bound before state =
      .ok params after) :
    (state.sees ")" = true ∧ params = before ∧ after = state.next) ∨
      (state.sees "," = true ∧ ∃ elements,
        ReadsList (productions depth) state.next elements after ∧
          params = before ++ elements.map Prod.snd) := by
  induction bound generalizing before state with
  | zero => cases run
  | succ bound hypothesis =>
      obtain ⟨round, middle, first, rest⟩ := bind_ok run
      by_cases closes : state.sees ")" = true
      · cases (accept_then closes).symm.trans first
        cases rest
        exact .inl ⟨closes, rfl, rfl⟩
      · refine .inr ?_
        replace first := (accept_else (by simpa using closes)).symm.trans first
        rw [if_neg (by simpa using nonempty)] at first
        obtain ⟨_, behind, expected, first⟩ := bind_ok first
        obtain ⟨comma, rfl⟩ := expect_ok expected
        obtain ⟨param, reached, one, done⟩ := bind_ok first
        cases done
        have further := lt_last ended rfl (kind_ne_eof_of_isSymbol comma)
        obtain ⟨read, cursor⟩ := @parameter_ok state.next _ _ _ ended further one
        refine ⟨comma, ?_⟩
        have same : middle.tokens = state.tokens := read.sameTokens
        rcases hypothesis (same ▸ ended) (same ▸ cursor) (by simp) rest with
          ⟨closes, rfl, rfl⟩ | ⟨comma, elements, others, rfl⟩
        · exact ⟨[(state.next, param)], .last read closes, rfl⟩
        · exact ⟨(state.next, param) :: elements, .more read comma others, by simp⟩

/-- Every parameter but the first stands behind a comma. -/
theorem ReadsList.behind_comma {elements : List (State × Param)}
    (read : ReadsList again state elements after) :
    ∀ element ∈ elements, element.1 = state ∨ element.1.tokens = state.tokens ∧
      ∃ index, element.1.pos = index + 1 ∧
      (state.tokens.get index).isSymbol "," = true := by
  induction read with
  | last one closes =>
      intro element listed
      rw [List.mem_singleton.mp listed]
      exact .inl rfl
  | @more before middle after param others one comma behind hypothesis =>
      have same : middle.next.tokens = before.tokens := one.sameTokens
      intro element listed
      rcases List.mem_cons.mp listed with rfl | listed
      · exact .inl rfl
      refine .inr ?_
      rcases hypothesis element listed with first | ⟨own, index, place, earlier⟩
      · rw [first]
        exact ⟨same, middle.pos, rfl, same ▸ comma⟩
      · exact ⟨own.trans same, index, place, same ▸ earlier⟩

theorem ReadsParameters.behind_comma {elements : List (State × Param)}
    (read : ReadsParameters again state elements after) :
    ∀ element ∈ elements, element.1 = state ∨ element.1.tokens = state.tokens ∧
      ∃ index, element.1.pos = index + 1 ∧
      (state.tokens.get index).isSymbol "," = true := by
  cases read with
  | none | void => exact fun element listed => absurd listed List.not_mem_nil
  | list read => exact read.behind_comma

/-- Parameters that each begin a type name have specifiers each. -/
theorem ReadsList.specified {elements : List (State × Param)}
    (read : ReadsList again state elements after)
    (starts : ∀ element ∈ elements, element.1.startsType element.1.pos = true) :
    SpecifiedList state.tokens state.pos elements.length after.pos := by
  induction read with
  | last one closes =>
      refine .last (one.specified (starts _ (List.mem_singleton_self _))) ?_
      rw [← one.sameTokens]
      exact closes
  | more one comma behind hypothesis =>
      refine .more (one.specified (starts _ List.mem_cons_self)) ?_ ?_
      · rw [← one.sameTokens]
        exact comma
      · rw [← one.sameTokens]
        exact hypothesis
          fun element listed => starts element (List.mem_cons_of_mem _ listed)

theorem ReadsParameters.specified {elements : List (State × Param)}
    (read : ReadsParameters again state elements after)
    (starts : ∀ element ∈ elements, element.1.startsType element.1.pos = true) :
    SpecifiedParameters state.tokens state.pos elements.length after.pos := by
  cases read with
  | none closes => exact .inl ⟨rfl, .token closes .nil⟩
  | void void closes => exact .inr (.inl ⟨rfl, .token void (.token closes .nil)⟩)
  | list read => exact .inr (.inr (read.specified starts))

/-- The loop over parameters reads a list of them. -/
theorem list_ok {depth bound : Nat} {params : List Param}
    (ended : state.tokens.eof.kind = .eof) (inside : state.pos ≤ state.tokens.last)
    (run : iterateFor (paramsRound (productions depth)) bound [] state =
      .ok params after) :
    ∃ elements, ReadsParameters (productions depth) state elements after ∧
      params = elements.map Prod.snd := by
  cases bound with
  | zero => cases run
  | succ bound =>
      obtain ⟨round, middle, first, rest⟩ := bind_ok run
      by_cases closes : state.sees ")" = true
      · cases (accept_then closes).symm.trans first
        cases rest
        exact ⟨[], .none closes, rfl⟩
      · replace first := (accept_else (by simpa using closes)).symm.trans first
        obtain ⟨param, reached, one, done⟩ := bind_ok first
        cases done
        obtain ⟨read, cursor⟩ := parameter_ok ended inside one
        have same := read.sameTokens
        rcases following_ok (same ▸ ended) (same ▸ cursor) (by simp) rest with
          ⟨closes, rfl, rfl⟩ | ⟨comma, elements, others, rfl⟩
        · exact ⟨[(state, param)], .list (.last read closes), rfl⟩
        · exact ⟨(state, param) :: elements, .list (.more read comma others), by simp⟩

/-- A parameter list that is accepted holds nothing, `void` alone, or parameters with a
comma between each two, up to its closing parenthesis, and the function type has exactly
these parameters in order.  If every parameter begins a type name, each has at least one
specifier; one that does not is a declarator alone, which may be empty, applied to
`int`. -/
theorem parameter_lists_follow_grammar
    {state after : State}
    {result id : TyId}
    {depth : Nat}
    (ended : state.tokens.eof.kind = .eof)
    (inside : state.pos ≤ state.tokens.last)
    (run : parameters (productions depth) result state = .ok id after) :
    ∃ elements last,
      ReadsParameters (productions depth) state elements last ∧
      after.tokens = state.tokens ∧ after.pos = last.pos ∧
      after.program.types.get? id =
        some ⟨.func result (elements.map Prod.snd), 1, 1, none⟩ ∧
      ((∀ element ∈ elements, element.1.startsType element.1.pos = true) ->
        SpecifiedParameters state.tokens state.pos elements.length after.pos) := by
  have same :=
    (Consumes.parameters (productions_derivable ended depth) ended result
      state rfl inside _ _ run).1
  obtain ⟨elements, last, read, entered⟩ :
      ∃ elements last, ReadsParameters (productions depth) state elements last ∧
        enterTy (·.function result (elements.map Prod.snd)) last = .ok id after := by
    rw [parameters_run] at run
    split at run
    · rename_i emptyList
      have ⟨void, closes⟩ := Bool.and_eq_true_iff.mp emptyList
      have first := lt_last ended rfl (kind_ne_eof_of_isSymbol void)
      have second := @lt_last _ state.next ended rfl (kind_ne_eof_of_isSymbol closes)
      rw [bind_run (advance_run first), bind_run (advance_run second)] at run
      exact ⟨[], _, .void void closes, run⟩
    · obtain ⟨params, last, listed, run⟩ := bind_ok run
      obtain ⟨elements, read, rfl⟩ := list_ok ended inside listed
      exact ⟨elements, last, read, run⟩
  cases entered
  exact ⟨elements, last, read, same, rfl, TypeTable.get?_insert_self _ _, read.specified⟩

/-- The tokens of `char *a, int (*)(void))`, places left out. -/
def signatureTokens : TokenStream :=
  ⟨#[⟨.keyword, "char", 0, 1⟩, ⟨.punctuator, "*", 0, 1⟩, ⟨.identifier, "a", 0, 1⟩,
      ⟨.punctuator, ",", 0, 1⟩, ⟨.keyword, "int", 0, 1⟩, ⟨.punctuator, "(", 0, 1⟩,
      ⟨.punctuator, "*", 0, 1⟩, ⟨.punctuator, ")", 0, 1⟩, ⟨.punctuator, "(", 0, 1⟩,
      ⟨.keyword, "void", 0, 1⟩, ⟨.punctuator, ")", 0, 1⟩, ⟨.punctuator, ")", 0, 1⟩],
    ⟨.eof, "", 0, 1⟩⟩

/-- The comma between the two parameters is the only one. -/
theorem signatureTokens_comma {index : Nat}
    (comma : (signatureTokens.get index).isSymbol "," = true) : index = 3 := by
  have inside : index < 12 := by
    apply Nat.lt_of_not_le
    intro beyond
    rw [TokenStream.get_of_last_le beyond] at comma
    exact Bool.false_ne_true comma
  have only :
      ∀ place < 12, (signatureTokens.get place).isSymbol "," = true -> place = 3 := by
    decide
  exact only index inside comma

/-- Two parameters, each with its specifier. -/
theorem signature_follows_grammar :
    ∃ id after elements last,
      parameters (productions 13) .long (.initial signatureTokens) = .ok id after ∧
      ReadsParameters (productions 13) (.initial signatureTokens) elements last ∧
      after.pos = last.pos ∧
      after.program.types.get? id =
        some ⟨.func .long (elements.map Prod.snd), 1, 1, none⟩ ∧
      elements.length = 2 ∧ SpecifiedParameters signatureTokens 0 2 after.pos := by
  obtain ⟨id, after, run⟩ :
      Succeeds (parameters (productions 13) .long) (.initial signatureTokens) := by
    decide +kernel
  have entered : ((parameters (productions 13) .long >>= lookupTy).run'
      (.initial signatureTokens)).map Ty.kind =
        some (.func .long [⟨⟨6⟩, some 2⟩, ⟨⟨9⟩, none⟩]) := by
    decide +kernel
  obtain ⟨elements, last, read, -, stop, entry, specified⟩ :=
    parameter_lists_follow_grammar rfl (Nat.zero_le _) run
  delta EStateM.run' EStateM.run at entered
  rw [bind_run run, lookupTy_run entry] at entered
  have two : elements.length = 2 := by
    have kinds := Option.some.inj entered
    rw [← List.length_map Prod.snd, (TyKind.func.inj kinds).2]
    rfl
  have starts : ∀ element ∈ elements, element.1.startsType element.1.pos = true := by
    intro element listed
    rcases read.behind_comma element listed with same | ⟨same, index, place, comma⟩
    · rw [same]
      decide
    · obtain rfl := signatureTokens_comma comma
      have keyword : element.1.seesAt 4 "int" = true := by
        rw [State.seesAt, State.token, same]
        rfl
      rw [place, State.startsType, Bool.or_eq_true, List.any_eq_true]
      exact .inl ⟨"int", by decide, keyword⟩
  exact ⟨id, after, elements, last, run, read, stop, entry, two, two ▸ specified starts⟩

/-- The tokens of `,)`, places left out. -/
def commaTokens : TokenStream :=
  ⟨#[⟨.punctuator, ",", 0, 1⟩, ⟨.punctuator, ")", 0, 1⟩], ⟨.eof, "", 0, 1⟩⟩

/-- No specifier begins with a comma. -/
theorem comma_begins_no_specifier {rest : List Item} {stop : Nat} :
    ¬ Derives commaTokens (.phrase .specifier :: rest) 0 stop := by
  intro whole
  cases whole with
  | token here _ => exact here
  | phrase form rule own _ =>
      simp only [Category.forms, primitiveWords, List.map_cons, List.map_nil,
        List.mem_cons, List.not_mem_nil, or_false] at rule
      rcases rule with rfl | rfl | rfl | rfl | rfl | rfl | rfl | rfl | rfl | rfl
      all_goals
        cases own with
        | token here _ => exact Bool.false_ne_true here

/-- A comma alone makes two parameters of type `int`, although none of them has a
specifier. -/
theorem comma_makes_two_parameters :
    ∃ id after, parameters (productions 3) .int (.initial commaTokens) = .ok id after ∧
      after.pos = 2 ∧
      after.program.types.get? id =
        some ⟨.func .int [⟨.int, none⟩, ⟨.int, none⟩], 1, 1, none⟩ ∧
      ¬ SpecifiedParameters commaTokens 0 2 2 := by
  have unspecified : ¬ SpecifiedParameters commaTokens 0 2 2 := by
    rintro (⟨none, -⟩ | ⟨none, -⟩ | list)
    · cases none
    · cases none
    · cases list with
      | more one _ _ => exact comma_begins_no_specifier one
  exact ⟨_, _, rfl, rfl, rfl, unspecified⟩

end Grammar
end MiniC
