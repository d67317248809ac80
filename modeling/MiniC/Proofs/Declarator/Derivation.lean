import MiniC.Proofs.Declarator.Parameters
import MiniC.Proofs.Grammar.Spans

/-!
# Derivations

The grammar of specifiers, declarators and parameter lists as rewriting rules over tokens,
and the soundness of their parsers: whatever they succeed on can be derived.

A rule lists what stands in a row: tokens and phrases.  Its reader works through such a
list from the left, so a parser is described by the list that it is to read and the part
of it that its result leaves to those behind it.
-/

namespace MiniC
namespace Grammar

open Declarators (paramsRound specifierRound specifiers_run)

/-- The phrases of the grammar of declarations. -/
inductive Category
  | specifiers
  | specifier
  | aggregate
  | enumeration
  | name
  | fields
  | fieldNames
  | moreFieldNames
  | constants
  | moreConstants
  | constant
  | value
  | number
  | declarator
  | suffix
  | parameters
  | moreParameters
  deriving DecidableEq

/-- What a rule has in one place. -/
inductive Item
  | symbol (symbol : String)
  | identifier
  | numeral
  | phrase (category : Category)
  deriving DecidableEq

/-- Whether a token is what a rule has in one place. -/
def Item.Is (item : Item) (token : Token) : Prop :=
  match item with
  | symbol text => token.isSymbol text = true
  | identifier => token.isIdentifier = true
  | numeral => ∃ value, token.kind = .num value
  | phrase _ => False

/-- The words that spell the primitive types. -/
def primitiveWords : List String := ["void", "_Bool", "char", "short", "int", "long"]

namespace Category

/-- The rules of the grammar: the ways to write a phrase. -/
def forms : Category -> List (List Item)
  | specifiers => [[], [.phrase specifier, .phrase specifiers]]
  | specifier =>
      [.identifier] :: [.symbol "struct", .phrase aggregate] ::
        [.symbol "union", .phrase aggregate] :: [.symbol "enum", .phrase enumeration] ::
        primitiveWords.map fun word => [.symbol word]
  | aggregate => [[.identifier], [.phrase name, .symbol openBrace, .phrase fields]]
  | enumeration => [[.identifier], [.phrase name, .symbol openBrace, .phrase constants]]
  | name => [[], [.identifier]]
  | fields =>
      [[.symbol closeBrace], [.phrase specifiers, .phrase fieldNames, .phrase fields]]
  | fieldNames => [[.symbol ";"], [.phrase declarator, .phrase moreFieldNames]]
  | moreFieldNames =>
      [[.symbol ";"], [.symbol ",", .phrase declarator, .phrase moreFieldNames]]
  | constants => [[.symbol closeBrace], [.phrase constant, .phrase moreConstants]]
  | moreConstants => [[.symbol closeBrace], [.symbol ",", .phrase constants]]
  | constant => [[.identifier, .phrase value]]
  | value => [[], [.symbol "=", .phrase number]]
  | number => [[.numeral], [.symbol "-", .numeral]]
  | declarator =>
      [[.symbol "*", .phrase declarator],
        [.symbol "(", .phrase declarator, .symbol ")", .phrase suffix],
        [.phrase name, .phrase suffix]]
  | suffix =>
      [[], [.symbol "(", .phrase parameters],
        [.symbol "[", .phrase number, .symbol "]", .phrase suffix]]
  | parameters =>
      [[.symbol ")"], [.symbol "void", .symbol ")"],
        [.phrase specifiers, .phrase declarator, .phrase moreParameters]]
  | moreParameters =>
      [[.symbol ")"],
        [.symbol ",", .phrase specifiers, .phrase declarator, .phrase moreParameters]]

end Category

/-- The tokens of a range can be derived from what a rule lists. -/
inductive Derives (tokens : TokenStream) : List Item -> Nat -> Nat -> Prop
  | nil {index : Nat} : Derives tokens [] index index
  | token {item : Item} {rest : List Item} {start stop : Nat}
      (here : item.Is (tokens.get start))
      (others : Derives tokens rest (start + 1) stop) :
      Derives tokens (item :: rest) start stop
  | phrase {category : Category} {rest : List Item} {start middle stop : Nat}
      (form : List Item) (rule : form ∈ category.forms)
      (own : Derives tokens form start middle)
      (others : Derives tokens rest middle stop) :
      Derives tokens (.phrase category :: rest) start stop

namespace Derives

variable {tokens : TokenStream} {items rest : List Item} {start middle stop : Nat}

theorem append (first : Derives tokens items start middle)
    (second : Derives tokens rest middle stop) :
    Derives tokens (items ++ rest) start stop := by
  induction first with
  | nil => exact second
  | token here _ hypothesis => exact .token here (hypothesis second)
  | phrase form rule own _ _ hypothesis => exact .phrase form rule own (hypothesis second)

theorem split (whole : Derives tokens (items ++ rest) start stop) :
    ∃ middle, Derives tokens items start middle ∧ Derives tokens rest middle stop := by
  induction items generalizing start with
  | nil => exact ⟨start, .nil, whole⟩
  | cons item items hypothesis =>
      cases whole with
      | token here others =>
          obtain ⟨middle, first, second⟩ := hypothesis others
          exact ⟨middle, .token here first, second⟩
      | phrase form rule own others =>
          obtain ⟨middle, first, second⟩ := hypothesis others
          exact ⟨middle, .phrase form rule own first, second⟩

end Derives

variable {tokens : TokenStream} {state : State} {items xs ys : List Item} {α β σ : Type}
  {rest : α -> List Item} {last : β -> List Item}

/-- From a state a parser that gives a result reads such items, up to those that its
result leaves. -/
def ConsumesAt (tokens : TokenStream) (state : State) (items : List Item)
    (parser : Parser α)
    (rest : α -> List Item) : Prop :=
  state.tokens = tokens -> state.pos ≤ tokens.last ->
    ∀ value after, parser state = .ok value after ->
      after.tokens = tokens ∧ after.pos ≤ tokens.last ∧
        ∀ stop, Derives tokens (rest value) after.pos stop ->
        Derives tokens items state.pos stop

/-- A parser that reads such items from every state. -/
def Consumes (tokens : TokenStream) (items : List Item) (parser : Parser α)
    (rest : α -> List Item) : Prop :=
  ∀ state, ConsumesAt tokens state items parser rest

/-- What one round of a loop leaves. -/
def Round.left (again : σ -> List Item) (done : α -> List Item) : Round σ α -> List Item
  | .again next => again next
  | .done result => done result

namespace ConsumesAt

/-- The end of a parser, with what its result leaves. -/
theorem pure (rest : α -> List Item) (value : α) :
    ConsumesAt tokens state (rest value) (Pure.pure value) rest := by
  intro own cursor value after run
  cases run
  exact ⟨own, cursor, fun _ left => left⟩

theorem bind {parser : Parser α} {behind : α -> Parser β}
    (first : ConsumesAt tokens state items parser rest)
    (second : ∀ value after, parser state = .ok value after ->
      ConsumesAt tokens after (rest value) (behind value) last) :
    ConsumesAt tokens state items (parser >>= behind) last := by
  intro own cursor value after run
  obtain ⟨given, between, firstRun, secondRun⟩ := bind_ok run
  obtain ⟨same, inside, derives⟩ := first own cursor given between firstRun
  obtain ⟨lastSame, lastInside, lastDerives⟩ :=
    second given between firstRun same inside value after secondRun
  exact ⟨lastSame, lastInside, fun stop left => derives stop (lastDerives stop left)⟩

/-- A parser that reads the state first. -/
theorem get_bind {behind : State -> Parser β}
    (second : ConsumesAt tokens state items (behind state) last) :
    ConsumesAt tokens state items (get >>= behind) last :=
  second

/-- What derives one list of items derives another. -/
theorem weaken {parser : Parser α} (reads : ConsumesAt tokens state xs parser rest)
    (derives : ∀ stop, Derives tokens xs state.pos stop ->
      Derives tokens items state.pos stop) :
    ConsumesAt tokens state items parser rest := by
  intro own cursor value after run
  obtain ⟨same, inside, read⟩ := reads own cursor value after run
  exact ⟨same, inside, fun stop left => derives stop (read stop left)⟩

/-- A phrase is written in one of its ways. -/
theorem rule {category : Category} {parser : Parser α} (form : List Item)
    (member : form ∈ category.forms)
    (reads : ConsumesAt tokens state (form ++ xs) parser rest) :
    ConsumesAt tokens state (.phrase category :: xs) parser rest :=
  reads.weaken fun _ whole =>
    have ⟨_, first, second⟩ := whole.split
    .phrase form member first second

/-- The cursor moves behind one token. -/
theorem token {item : Item} {first : Parser α} {value : α} {behind : α -> Parser β}
    (ended : tokens.eof.kind = .eof) (present : state.current.kind ≠ .eof)
    (here : item.Is state.current)
    (run : state.pos < state.tokens.last -> first state = .ok value state.next)
    (second : ConsumesAt tokens state.next xs (behind value) last) :
    ConsumesAt tokens state (item :: xs) (first >>= behind) last := by
  intro own cursor result after whole
  have further := lt_last ended own present
  rw [bind_run (run (own ▸ further))] at whole
  obtain ⟨same, inside, derives⟩ := second own further result after whole
  subst own
  exact ⟨same, inside, fun stop left => .token here (derives stop left)⟩

/-- A parser that reads all it is to read may have more behind it. -/
theorem before {parser : Parser α}
    (own : ConsumesAt tokens state items parser fun _ => [])
    (xs : List Item) : ConsumesAt tokens state (items ++ xs) parser fun _ => xs := by
  intro same cursor value after run
  obtain ⟨reached, inside, derives⟩ := own same cursor value after run
  exact ⟨reached, inside, fun stop left => (derives after.pos .nil).append left⟩

theorem ite {condition : Prop} [Decidable condition] {left right : Parser α}
    (first : condition -> ConsumesAt tokens state items left rest)
    (second : ¬ condition -> ConsumesAt tokens state items right rest) :
    ConsumesAt tokens state items (if condition then left else right) rest := by
  split
  · exact first ‹_›
  · exact second ‹_›

/-- A symbol is consumed, or another parser goes on. -/
theorem accept {symbol : String} {yes no : Parser β}
    (first : ConsumesAt tokens state items (do let _ ← Grammar.expect symbol; yes) last)
    (second : state.sees symbol = false -> ConsumesAt tokens state items no last) :
    ConsumesAt tokens state items
      (do if ← Grammar.accept symbol then yes else no) last := by
  intro own cursor value after run
  by_cases here : state.sees symbol = true
  · rw [accept_then here] at run
    exact first own cursor value after ((bind_run (expect_run here)).trans run)
  · have other : state.sees symbol = false := by simpa using here
    rw [accept_else other] at run
    exact second other own cursor value after run

end ConsumesAt

namespace Consumes

theorem bind {parser : Parser α} {behind : α -> Parser β}
    (first : Consumes tokens items parser rest)
    (second : ∀ value, Consumes tokens (rest value) (behind value) last) :
    Consumes tokens items (parser >>= behind) last :=
  fun state => .bind (first state) fun value after _ => second value after

/-- A parser that leaves the cursor alone. -/
theorem of_still {parser : Parser α} (still : Still parser) :
    Consumes tokens items parser fun _ => items := by
  intro state own cursor value after run
  obtain ⟨same, stays⟩ := still state value after run
  exact ⟨same.trans own, stays ▸ cursor, fun stop left => stays ▸ left⟩

/-- A parser that leaves the cursor alone in front of another. -/
theorem lead {parser : Parser α} {behind : α -> Parser β} (still : Still parser)
    (second : ∀ value, Consumes tokens items (behind value) last) :
    Consumes tokens items (parser >>= behind) last :=
  .bind (.of_still still) second

theorem pure (value : α) : Consumes tokens (rest value) (Pure.pure value) rest :=
  fun _ => .pure rest value

theorem of_error {parser : Parser α} (fails : ∀ state, ∃ error after,
    parser state = .error error after) : Consumes tokens items parser rest := by
  intro state _ _ value after run
  obtain ⟨error, reached, failed⟩ := fails state
  cases failed.symm.trans run

/-- A check in front of a parser. -/
theorem first_if {condition : Prop} [Decidable condition] {index : Nat} {cause : Cause}
    {behind : Unit -> Parser β} (second : Consumes tokens items (behind ()) last) :
    Consumes tokens items
      (if condition then failAt index cause >>= behind else behind ()) last := by
  split
  · exact .of_error fun _ => ⟨_, _, rfl⟩
  · exact second

/-- A phrase in front of what follows it. -/
theorem phrase {category : Category} {parser : Parser α}
    (own : Consumes tokens [.phrase category] parser fun _ => []) :
    Consumes tokens (.phrase category :: xs) parser fun _ => xs :=
  fun state => (own state).before xs

theorem rule {category : Category} {parser : Parser α} (form : List Item)
    (member : form ∈ category.forms) (reads : Consumes tokens (form ++ xs) parser rest) :
    Consumes tokens (.phrase category :: xs) parser rest :=
  fun state => .rule form member (reads state)

theorem iterateFor {round : σ -> Parser (Round σ α)} (items : σ -> List Item)
    (rounds : ∀ current, Consumes tokens (items current) (round current)
      (Round.left items rest))
    (bound : Nat) (start : σ) :
    Consumes tokens (items start) (iterateFor round bound start) rest := by
  induction bound generalizing start with
  | zero => exact .of_error fun _ => ⟨_, _, rfl⟩
  | succ bound hypothesis =>
      refine .bind (rounds start) fun result => ?_
      cases result with
      | again next => exact hypothesis next
      | done found => exact .pure found

/-- Every round of a loop reads a part of what its state has before it. -/
theorem iterate {start : σ} {round : σ -> Parser (Round σ α)} (items : σ -> List Item)
    (rounds : ∀ current, Consumes tokens (items current) (round current)
      (Round.left items rest)) :
    Consumes tokens (items start) (iterate start round) rest :=
  .lead .get fun _ => .iterateFor items rounds _ _

/-- A symbol is consumed, or another parser goes on. -/
theorem accept {symbol : String} {yes no : Parser β}
    (first : Consumes tokens items (do let _ ← Grammar.expect symbol; yes) last)
    (second : Consumes tokens items no last) :
    Consumes tokens items (do if ← Grammar.accept symbol then yes else no) last :=
  fun state => .accept (first state) fun _ => second state

/-! ## Tokens -/

variable (ended : tokens.eof.kind = .eof)

include ended

theorem expect (symbol : String) :
    Consumes tokens (.symbol symbol :: xs) (expect symbol) fun _ => xs := by
  intro state own cursor value after run
  by_cases here : state.sees symbol = true
  · rw [expect_run here] at run
    cases run
    subst own
    exact ⟨rfl, lt_last ended rfl (kind_ne_eof_of_isSymbol here),
      fun _ left => .token here left⟩
  · change (Grammar.accept symbol >>= _) state = _ at run
    rw [bind_run (accept_of_not_sees (by simpa using here))] at run
    cases run

theorem identifier : Consumes tokens (.identifier :: xs) identifier fun _ => xs := by
  intro state own cursor value after run
  by_cases here : state.current.isIdentifier = true
  · rw [identifier_run here] at run
    cases run
    subst own
    exact ⟨rfl, lt_last ended rfl (kind_ne_eof_of_isIdentifier here),
      fun _ left => .token here left⟩
  · change (if state.current.isIdentifier = true then _ else _ : Parser _)
      state = _ at run
    rw [if_neg here] at run
    cases run

/-- An identifier that may be missing. -/
theorem identifier? : Consumes tokens (.phrase .name :: xs) identifier? fun _ => xs := by
  refine .lead .get fun state => ?_
  split
  · exact .rule [.identifier] (by decide) (.bind (.identifier ended) fun _ => .pure _)
  · exact .rule [] (by decide) (.pure _)

theorem digits (negative : Bool) :
    Consumes tokens (.numeral :: xs) (digits negative) fun _ => xs := by
  have signed (value : Int) :
      Consumes tokens xs (if negative then negated value else Pure.pure value)
        fun _ => xs :=
    .of_still (.ite (.ite (.pure _) (.throw _)) (.pure _))
  intro state own cursor result after whole
  unfold Grammar.digits at whole
  rw [get_run] at whole
  cases here : state.current.kind with
  | num value =>
      rw [here] at whole
      have numeral : Item.numeral.Is state.current := ⟨value, here⟩
      have behind : ConsumesAt tokens state (.numeral :: xs) (do
          set state.next
          if negative then negated value else Pure.pure value) fun _ => xs :=
        .token ended (by simp [here]) numeral (fun _ => rfl) (signed value state.next)
      exact behind own cursor result after whole
  | _ =>
      rw [here] at whole
      cases whole

theorem number : Consumes tokens (.phrase .number :: xs) number fun _ => xs := by
  rw [number_eq]
  exact .accept
    (.rule [.symbol "-", .numeral] (by decide)
      (.bind (.expect ended "-") fun _ => .digits ended true))
    (.rule [.numeral] (by decide) (.digits ended false))

/-! ## Enums -/

theorem enumConstant (ty : TyId) (next : Option Int) :
    Consumes tokens [.phrase .constant] (enumConstant ty next) fun _ => [] := by
  have declared (name : String) (value : Int) : Consumes tokens [] (do
      Grammar.modifyScopes (·.declareVariable name (.enumConstant ty value))
      return Extent.add? value 1) fun _ => [] :=
    .of_still (.bind (.modifyScopes _) fun _ => .pure _)
  refine .rule [.identifier, .phrase .value] (by decide)
    (.bind (.identifier ended) fun named => .accept ?_ ?_)
  · exact .rule [.symbol "=", .phrase .number] (by decide)
      (.bind (.expect ended "=") fun _ => .bind (.number ended) fun _ => declared _ _)
  · refine .rule [] (by decide) ?_
    split
    · exact .lead (.pure _) (declared _)
    · exact .lead (.failAt _ _) (declared _)

theorem enumConstants (ty : TyId) :
    Consumes tokens [.phrase .constants] (enumConstants ty) fun _ => [] := by
  let ahead (seen : Bool × Option Int) : List Item :=
    [.phrase (bif seen.1 then .constants else .moreConstants)]
  have closing (category : Category) (closes : [.symbol closeBrace] ∈ category.forms) :
      Consumes tokens [.phrase category]
        (do let _ ← Grammar.expect closeBrace; return .done () : Parser (Round _ Unit))
        (Round.left ahead fun _ => []) :=
    .rule [.symbol closeBrace] closes (.bind (.expect ended closeBrace) fun _ => .pure _)
  have another (next : Option Int) :
      Consumes tokens [.phrase .constants]
        (do return .again (false, ← Grammar.enumConstant ty next) : Parser (Round _ Unit))
        (Round.left ahead fun _ => []) :=
    .rule [.phrase .constant, .phrase .moreConstants] (by decide)
      (.bind (.phrase (.enumConstant ended ty next)) fun _ => .pure _)
  have closingFirst := closing .constants (by decide)
  have closingLater := closing .moreConstants (by decide)
  refine .iterate ahead fun (first, next) => ?_
  cases first with
  | true => exact .accept closingFirst (another next)
  | false =>
      have comma : Consumes tokens [.phrase .moreConstants] (Grammar.expect ",")
          fun _ => [.phrase .constants] :=
        .rule [.symbol ",", .phrase .constants] (by decide) (.expect ended ",")
      exact .accept closingLater
        (.bind comma fun _ => .accept closingFirst (another next))

/-- A tag that refers to a type, or a body, which may have a tag. -/
theorem tagOrBody {category body : Category} {reference : String -> Nat -> Parser TyId}
    {parser : Option (String × Nat) -> Parser TyId}
    {choose : Option (String × Nat) -> State -> Parser TyId}
    (forms : category.forms =
      [[.identifier], [.phrase .name, .symbol openBrace, .phrase body]])
    (refers : ∀ name tok state, state.sees openBrace = false ->
      choose (some (name, tok)) state = reference name tok)
    (opens : ∀ tag state, state.sees openBrace = true -> choose tag state = parser tag)
    (unnamed : ∀ state, choose none state = parser none)
    (still : ∀ tag tok, Still (reference tag tok))
    (reads : ∀ tag, Consumes tokens [.symbol openBrace, .phrase body] (parser tag)
      fun _ => []) :
    Consumes tokens [.phrase category] (do
      let tag ← Grammar.identifier?
      choose tag (← get)) fun _ => [] := by
  intro state
  by_cases named : state.current.isIdentifier = true
  · by_cases brace : state.next.sees openBrace = true
    · refine .rule [.phrase .name, .symbol openBrace, .phrase body] (by simp [forms])
        (.rule [.identifier] (by decide) (.token ended
          (kind_ne_eof_of_isIdentifier named) named (fun _ => identifier?_run named) ?_))
      change ConsumesAt _ state.next _ (choose _ state.next) _
      rw [opens _ _ brace]
      exact reads _ _
    · refine .rule [.identifier] (by simp [forms]) (.token ended
        (kind_ne_eof_of_isIdentifier named) named (fun _ => identifier?_run named) ?_)
      change ConsumesAt _ state.next _ (choose _ state.next) _
      rw [refers _ _ _ (by simpa using brace)]
      exact Consumes.of_still (still _ _) state.next
  · refine .rule [.phrase .name, .symbol openBrace, .phrase body] (by simp [forms])
      (.rule [] (by decide) ?_)
    intro own cursor value after run
    have absent : Grammar.identifier? state = .ok none state := by
      change (if state.current.isIdentifier = true then _ else _ : Parser _) state = _
      rw [if_neg named]
      rfl
    rw [bind_run absent, get_run, unnamed] at run
    exact reads none state own cursor value after run

theorem enumBody (tag : Option (String × Nat)) :
    Consumes tokens [.symbol openBrace, .phrase .constants] (enumBody tag) fun _ => [] :=
  .bind (.expect ended _) fun _ => .lead (.enterTy _) fun _ =>
    .bind (.phrase (.enumConstants ended _)) fun _ =>
      .of_still (.bind (.bindTag _ _) fun _ => .pure _)

theorem enumeration : Consumes tokens [.phrase .enumeration] enumeration fun _ => [] := by
  refine .tagOrBody ended rfl ?_ ?_ (fun _ => rfl) Still.taggedEnum (.enumBody ended)
  · intro name tok state other
    simp only [other]
  · intro tag state brace
    simp only [brace]

end Consumes

/-! ## Specifiers and declarators -/

/-- Productions that read the phrases they are named for. -/
structure Productions.Derivable (tokens : TokenStream) (again : Productions) : Prop where
  specifiers : Consumes tokens [.phrase .specifiers] (again.specifiers false) fun _ => []
  declarator : ∀ ty, Consumes tokens [.phrase .declarator] (again.declarator ty) fun _ =>
    []
  suffix : ∀ ty, Consumes tokens [.phrase .suffix] (again.suffix ty) fun _ => []

/-- What a parameter list still has behind the given parameters. -/
def listAhead : List Param -> List Item
  | [] => [.phrase .parameters]
  | _ :: _ => [.phrase .moreParameters]

theorem listAhead_append (params : List Param) (param : Param) :
    listAhead (params ++ [param]) = [.phrase .moreParameters] := by
  cases params <;> rfl

namespace Consumes

variable {again : Productions} (derivable : again.Derivable tokens)
    (ended : tokens.eof.kind = .eof)

include ended

theorem pointers (base : TyId) :
    Consumes tokens [.phrase .declarator] (pointers base) fun _ =>
      [.phrase .declarator] := by
  refine .iterate (fun _ => [.phrase .declarator]) fun ty => .accept ?_ (.pure _)
  exact .rule [.symbol "*", .phrase .declarator] (by decide)
    (.bind (.expect ended "*") fun _ => .lead (.enterTy _) fun _ => .pure _)

include derivable

omit ended in
theorem parameter :
    Consumes tokens [.phrase .specifiers, .phrase .declarator] (parameter again)
      fun _ => [] :=
  .bind (.phrase derivable.specifiers) fun _ =>
    .bind (.phrase (derivable.declarator _)) fun _ =>
    .of_still (.bind (.parameterTy _) fun _ => .pure _)

/-- The loop over parameters reads one more, or ends behind the closing parenthesis. -/
theorem paramsRound (params : List Param) :
    Consumes tokens (listAhead params) (paramsRound again params)
      (Round.left listAhead fun _ => []) := by
  have closing (category : Category) (closes : [.symbol ")"] ∈ category.forms) :
      Consumes tokens [.phrase category]
        (do let _ ← Grammar.expect ")"; return .done params : Parser
          (Round (List Param) _))
        (Round.left listAhead fun _ => []) :=
    .rule [.symbol ")"] closes (.bind (.expect ended ")") fun _ => .pure _)
  have another :
      Consumes tokens [.phrase .specifiers, .phrase .declarator, .phrase .moreParameters]
        (do return .again (params ++ [← Grammar.parameter again]) :
          Parser (Round (List Param) (List Param)))
        (Round.left listAhead fun _ => []) := by
    refine .bind (fun state => (parameter derivable state).before
      [.phrase .moreParameters]) fun param => ?_
    rw [← listAhead_append params param]
    exact .pure (Round.again (params ++ [param]))
  cases params with
  | nil =>
      exact .accept (closing .parameters (by decide))
        (.rule [.phrase .specifiers, .phrase .declarator, .phrase .moreParameters]
          (by decide) another)
  | cons param params =>
      exact .accept (closing .moreParameters (by decide))
        (.rule [.symbol ",", .phrase .specifiers, .phrase .declarator,
          .phrase .moreParameters]
          (by decide) (.bind (.expect ended ",") fun _ => another))

theorem parameters (result : TyId) :
    Consumes tokens [.phrase .parameters] (parameters again result) fun _ => [] := by
  have entered (params : List Param) :
      Consumes tokens [] (enterTy (·.function result params)) fun _ => [] :=
    .of_still (.enterTy _)
  refine fun state => .get_bind (.ite (fun emptyList => ?_) fun _ => ?_)
  · have ⟨void, close⟩ := Bool.and_eq_true_iff.mp emptyList
    exact .rule [.symbol "void", .symbol ")"] (by decide)
      (.token ended (kind_ne_eof_of_isSymbol void) void advance_run
        (.token ended (kind_ne_eof_of_isSymbol close) close advance_run (entered [] _)))
  · exact Consumes.bind (.iterate listAhead (paramsRound derivable ended))
      (fun _ => entered _) state

theorem arraySuffix (ty : TyId) :
    Consumes tokens [.phrase .number, .symbol "]", .phrase .suffix] (arraySuffix again ty)
      fun _ => [] :=
  .lead .position fun _ => .bind (.number ended) fun _ => .first_if <|
    .bind (.expect ended "]") fun _ => .bind (.phrase (derivable.suffix ty)) fun _ =>
      .lead (.lookupTy _) fun _ => .first_if <| .of_still (.arrayOf _ _ _ _)

theorem suffix (ty : TyId) :
    Consumes tokens [.phrase .suffix] (suffix again ty) fun _ => [] := by
  refine .accept ?_ (.accept ?_ (.rule [] (by decide) (.pure _)))
  · exact .rule [.symbol "(", .phrase .parameters] (by decide)
      (.bind (.expect ended "(") fun _ => .parameters derivable ended ty)
  · exact .rule [.symbol "[", .phrase .number, .symbol "]", .phrase .suffix] (by decide)
      (.bind (.expect ended "[") fun _ => .arraySuffix derivable ended ty)

end Consumes

section

variable {again : Productions} (derivable : again.Derivable tokens)
    (ended : tokens.eof.kind = .eof)

include derivable ended

/-- A declarator in parentheses is read twice; the first reading finds its end. -/
theorem ConsumesAt.nestedDeclarator (here : state.sees "(" = true) (ty : TyId) :
    ConsumesAt tokens state [.phrase .declarator] (nestedDeclarator again ty)
      fun _ => [] := by
  intro own cursor declared after run
  have further := lt_last ended own (kind_ne_eof_of_isSymbol here)
  obtain ⟨trial, first, second, outer, third, fourth, firstReading, closing, suffixed,
    secondReading, rfl⟩ := nestedDeclarator_ok (own ▸ further) run
  obtain ⟨firstSame, firstInside, derives⟩ :=
    derivable.declarator .int state.next own further _ _ firstReading
  have whole : Consumes tokens [.symbol ")", .phrase .suffix]
      (do let _ ← Grammar.expect ")"; Grammar.suffix again ty) fun _ => [] :=
    .bind (.expect ended ")") fun _ => .suffix derivable ended ty
  obtain ⟨same, inside, closes⟩ :=
    whole first firstSame firstInside _ _ ((bind_run closing).trans suffixed)
  obtain ⟨lastSame, -, -⟩ := derivable.declarator outer
    { third with pos := min state.next.pos third.tokens.last } same
    (same ▸ Nat.min_le_right _ _) _ _ secondReading
  have stop : min third.pos fourth.tokens.last = third.pos := by
    rw [lastSame]
    exact Nat.min_eq_left inside
  rw [stop]
  refine ⟨lastSame, inside, fun stop left => ?_⟩
  subst own
  exact .phrase [.symbol "(", .phrase .declarator, .symbol ")", .phrase .suffix]
    (by decide) (.token here ((derives first.pos .nil).append (closes third.pos .nil)))
      left

namespace Consumes

theorem declarator (base : TyId) :
    Consumes tokens [.phrase .declarator] (declarator again base) fun _ => [] := by
  refine .lead .position fun _ => .bind (.pointers ended base)
    fun ty state => .get_bind ?_
  refine .ite (fun nested => ?_) fun _ => ?_
  · have here := (Bool.and_eq_true_iff.mp nested).1
    exact .bind (.nestedDeclarator derivable ended here ty)
      fun _ after _ => Consumes.pure _ after
  · exact Consumes.rule [.phrase .name, .phrase .suffix] (by decide)
      (.bind (.identifier? ended) fun _ =>
        .bind (.suffix derivable ended ty) fun _ => .pure _) state

/-- A list of field names up to its semicolon. -/
theorem fieldNames (base : TyId) (fields : List Field) :
    Consumes tokens [.phrase .fieldNames] (declaratorList again base fields addField)
      fun _ => [] := by
  let ahead (seen : Bool × List Field) : List Item :=
    [.phrase (bif seen.1 then .fieldNames else .moreFieldNames)]
  have closing (category : Category) (closes : [.symbol ";"] ∈ category.forms)
      (fields : List Field) :
      Consumes tokens [.phrase category]
        (do let _ ← Grammar.expect ";"; return .done fields :
          Parser (Round (Bool × List Field) _))
        (Round.left ahead fun _ => []) :=
    .rule [.symbol ";"] closes (.bind (.expect ended ";") fun _ => .pure _)
  have another (fields : List Field) :
      Consumes tokens [.phrase .declarator, .phrase .moreFieldNames] (do
        let declared ← Grammar.declarator again base
        let tok ← declared.requireName
        return .again (false, ← addField fields declared tok) :
          Parser (Round _ (List Field)))
        (Round.left ahead fun _ => []) :=
    .bind (.phrase (.declarator derivable ended base)) fun declared =>
      .lead (.requireName declared) fun _ => .lead (.addField _ _ _) fun _ => .pure _
  refine .iterate ahead fun (first, fields) => ?_
  cases first with
  | true =>
      refine .accept (closing .fieldNames (by decide) fields) ?_
      have first :
          Consumes tokens [.phrase .fieldNames] _ (Round.left ahead fun _ => []) :=
        .rule [.phrase .declarator, .phrase .moreFieldNames] (by decide) (another fields)
      exact first
  | false =>
      refine .accept (closing .moreFieldNames (by decide) fields) ?_
      have comma : Consumes tokens [.phrase .moreFieldNames] (Grammar.expect ",")
          fun _ => [.phrase .declarator, .phrase .moreFieldNames] :=
        .rule [.symbol ",", .phrase .declarator, .phrase .moreFieldNames] (by decide)
          (.expect ended ",")
      exact .bind comma fun _ => another fields

theorem fieldList : Consumes tokens [.phrase .fields] (fieldList again) fun _ => [] := by
  refine .iterate (fun _ => [.phrase .fields]) fun fields => .accept ?_ ?_
  · exact .rule [.symbol closeBrace] (by decide)
      (.bind (.expect ended _) fun _ => .pure _)
  · exact .rule [.phrase .specifiers, .phrase .fieldNames, .phrase .fields] (by decide)
      (.bind (.phrase derivable.specifiers) fun _ =>
        .bind (.phrase (.fieldNames derivable ended _ _)) fun _ => .pure _)

theorem aggregateBody (form : Form) (tag : Option (String × Nat)) :
    Consumes tokens [.symbol openBrace, .phrase .fields] (aggregateBody again form tag)
      fun _ => [] :=
  .lead .position fun _ => .bind (.expect ended _) fun _ => .lead (.enterTy _) fun _ =>
    .lead (.bindTag _ _) fun _ => .bind (.phrase (.fieldList derivable ended)) fun _ =>
      .of_still (.bind (.completeTy _ _ _) fun _ => .pure _)

theorem aggregate (form : Form) :
    Consumes tokens [.phrase .aggregate] (aggregate again form) fun _ => [] := by
  refine .tagOrBody ended rfl ?_ ?_ (fun _ => rfl) (Still.taggedAggregate form)
    (.aggregateBody derivable ended form)
  · intro name tok state other
    simp only [other]
  · intro tag state brace
    simp only [brace]

end Consumes

/-- A struct, union, enum or typedef name. -/
theorem ConsumesAt.namedTy (typedef : Option TyId)
    (names : (state.sees "struct" || state.sees "union" || state.sees "enum" ||
      typedef.isSome) = true)
    (isName : typedef.isSome = true -> state.current.isIdentifier = true) :
    ConsumesAt tokens state [.phrase .specifier] (namedTy again typedef) fun _ => [] := by
  refine .accept ?_ fun noStruct => .accept ?_ fun noUnion => .accept ?_ fun noEnum => ?_
  · exact Consumes.rule [.symbol "struct", .phrase .aggregate] (by decide)
      (.bind (.expect ended _) fun _ => .aggregate derivable ended _) state
  · exact Consumes.rule [.symbol "union", .phrase .aggregate] (by decide)
      (.bind (.expect ended _) fun _ => .aggregate derivable ended _) state
  · exact Consumes.rule [.symbol "enum", .phrase .enumeration] (by decide)
      (.bind (.expect ended _) fun _ => .enumeration ended) state
  · rw [noStruct, noUnion, noEnum] at names
    have here := isName (by simpa using names)
    exact .rule [.identifier] (by decide)
      (.token ended (kind_ne_eof_of_isIdentifier here) here advance_run
        (.pure (fun _ => []) _))

omit derivable in
/-- A word of a primitive type. -/
theorem ConsumesAt.typeWord (seen : Specifiers) {word : String}
    (listed : word ∈ primitiveWords) (here : state.sees word = true) :
    ConsumesAt tokens state [.phrase .specifier] (typeWord seen) fun _ => [] := by
  have member : [Item.symbol word] ∈ Category.specifier.forms := by
    simp only [Category.forms, List.mem_cons, List.mem_map]
    exact .inr (.inr (.inr (.inr ⟨word, listed, rfl⟩)))
  refine .rule _ member (.get_bind ?_)
  split
  · exact Consumes.of_error (fun _ => ⟨_, _, rfl⟩) state
  · exact .token ended (kind_ne_eof_of_isSymbol here) here advance_run
      (.pure (fun _ => []) _)

omit derivable ended in
/-- A word that begins a type but no struct, union, enum, typedef name or storage
class. -/
theorem State.primitive_of_startsType (starts : state.startsType state.pos = true)
    (noStorage : (state.sees "typedef" || state.sees "static") = false)
    (noName : (state.sees "struct" || state.sees "union" || state.sees "enum" ||
      (state.typedefAt? state.pos).isSome) = false) :
    ∃ word ∈ primitiveWords, state.sees word = true := by
  simp only [Bool.or_eq_false_iff] at noStorage noName
  unfold startsType at starts
  rw [noName.2, Bool.or_false] at starts
  obtain ⟨word, listed, here⟩ := List.any_eq_true.mp starts
  have sorted : ∀ word ∈ typeKeywords, word ∈ primitiveWords ∨
      word ∈ ["struct", "union", "enum", "typedef", "static"] := by decide
  refine ⟨word, (sorted word listed).resolve_right fun other => ?_, here⟩
  simp only [List.mem_cons, List.not_mem_nil, or_false] at other
  rcases other with rfl | rfl | rfl | rfl | rfl
  · exact Bool.false_ne_true (noName.1.1.1.symm.trans here)
  · exact Bool.false_ne_true (noName.1.1.2.symm.trans here)
  · exact Bool.false_ne_true (noName.1.2.symm.trans here)
  · exact Bool.false_ne_true (noStorage.1.symm.trans here)
  · exact Bool.false_ne_true (noStorage.2.symm.trans here)

/-- What is left to read behind one round of the loop over specifiers. -/
def specifiersAhead : Round Specifiers (TyId × Storage) -> List Item :=
  Round.left (fun _ => [.phrase .specifiers]) fun _ => []

/-- One round reads a specifier, unless there is none or another type is named already. -/
theorem ConsumesAt.specifierRound (seen : Specifiers)
    (ends : (state.startsType state.pos = true -> seen.namesType = true) ->
      Derives tokens items state.pos state.pos)
    (goesOn : ∀ stop, Derives tokens [.phrase .specifier, .phrase .specifiers]
      state.pos stop -> Derives tokens items state.pos stop) :
    ConsumesAt tokens state items (specifierRound again false seen) specifiersAhead := by
  have done (noMore : state.startsType state.pos = true -> seen.namesType = true) :
      ConsumesAt tokens state items (Pure.pure (.done (seen.ty, seen.storage)))
        specifiersAhead :=
    (ConsumesAt.pure specifiersAhead (.done _)).weaken fun stop nothing => by
      cases nothing
      exact ends noMore
  have another {result : Type} {parser : Parser result} (next : result -> Specifiers)
      (reads : ConsumesAt tokens state [.phrase .specifier] parser fun _ => []) :
      ConsumesAt tokens state items
        (parser >>= fun value => Pure.pure (.again (next value)))
        specifiersAhead :=
    .weaken (.bind (reads.before [.phrase .specifiers]) fun value _ _ =>
      .pure specifiersAhead (.again (next value))) goesOn
  refine .get_bind (.ite (fun other => done fun starts => ?_) fun starts =>
    .ite (fun _ => ?_)
    fun noStorage => .ite
      (fun named => .ite (fun behind => done fun _ => behind) fun _ => ?_)
      fun unnamed => ?_)
  · rw [starts] at other
    cases other
  · exact Consumes.of_error (fun _ => ⟨_, _, rfl⟩) state
  · exact another _ (.namedTy derivable ended _ named State.isIdentifier_of_typedefAt?)
  · obtain ⟨word, listed, here⟩ := State.primitive_of_startsType (by simpa using starts)
      (by simpa using noStorage) (by simpa using unnamed)
    exact another id (.typeWord ended seen listed here)

theorem Consumes.specifierRound (seen : Specifiers) :
    Consumes tokens [.phrase .specifiers] (specifierRound again false seen)
      specifiersAhead :=
  fun _ => .specifierRound derivable ended seen
    (fun _ => .phrase [] (by decide) .nil .nil)
    fun _ some => .phrase [.phrase .specifier, .phrase .specifiers] (by decide) some .nil

/-- Specifiers without a storage class. -/
theorem Consumes.specifiers :
    Consumes tokens [.phrase .specifiers] (specifiers again false) fun _ => [] :=
  .iterate (fun _ => [.phrase .specifiers]) (.specifierRound derivable ended)

/-- Where a type name begins there is at least one specifier. -/
theorem ConsumesAt.specifiers (starts : state.startsType state.pos = true) :
    ConsumesAt tokens state [.phrase .specifier, .phrase .specifiers]
      (specifiers again false) fun _ => [] := by
  have first : ConsumesAt tokens state [.phrase .specifier, .phrase .specifiers]
      (Declarators.specifierRound again false .none) specifiersAhead :=
    .specifierRound derivable ended .none (fun behind => nomatch behind starts)
      fun _ whole => whole
  refine .get_bind (.bind first fun result after _ => ?_)
  cases result with
  | done found => exact .pure (fun _ => []) found
  | again seen =>
      exact Consumes.iterateFor (fun _ => [.phrase .specifiers])
        (.specifierRound derivable ended) _ seen after

omit derivable ended in
/-- Where no type name begins nothing is read, and the type is `int`. -/
theorem specifiers_run_of_not_startsType {allowed : Bool}
    (other : state.startsType state.pos = false) :
    Grammar.specifiers again allowed state = .ok (.int, ⟨false, false⟩) state := by
  rw [specifiers_run]
  refine iterateFor_done (?_ : specifierRound again allowed .none state = _) _
  unfold specifierRound
  rw [get_run, other]
  rfl

end

/-- Whatever the productions succeed on can be derived, to every depth. -/
theorem productions_derivable (ended : tokens.eof.kind = .eof) (depth : Nat) :
    (productions depth).Derivable tokens := by
  induction depth with
  | zero =>
      exact ⟨.of_error fun _ => ⟨_, _, rfl⟩, fun _ => .of_error fun _ => ⟨_, _, rfl⟩,
        fun _ => .of_error fun _ => ⟨_, _, rfl⟩⟩
  | succ depth hypothesis =>
      exact ⟨.specifiers hypothesis ended, .declarator hypothesis ended,
        .suffix hypothesis ended⟩

end Grammar
end MiniC
