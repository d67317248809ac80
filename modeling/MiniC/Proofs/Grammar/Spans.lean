import MiniC.Proofs.Grammar.Additions
import MiniC.Proofs.Grammar.Arena

/-!
# Parentheses in type names

The tokens of specifiers and declarators hold no string literal, and every parenthesis
that they open they close again.  So a declarator in parentheses ends before the
parenthesis that closes it whenever it is read, although it is read twice and the second
reading may not see the same scopes as the first.
-/

namespace MiniC

/-- Number of open parentheses behind a token, if no more are closed than open and the
token is no string literal. -/
def Token.nest (token : Token) (opened : Nat) : Option Nat :=
  if token.isSymbol "(" then
    some (opened + 1)
  else if token.isSymbol ")" then
    match opened with
    | 0 => none
    | outer + 1 => some outer
  else if token.kind.string?.isSome then
    none
  else
    some opened

/-- Number of open parentheses behind several tokens. -/
def nesting (opened : Nat) (list : List Token) : Option Nat :=
  list.foldlM (fun opened token => token.nest opened) opened

namespace Token

variable {token : Token} {symbol : String}

/-- A token that leaves the parentheses as they are. -/
def Plain (token : Token) : Prop := ∀ opened, token.nest opened = some opened

/-- A token is one symbol only. -/
theorem isSymbol_eq_false (here : token.isSymbol symbol = true) {other : String}
    (differ : symbol ≠ other) : token.isSymbol other = false := by
  unfold isSymbol at *
  split at here <;> simp_all

/-- A symbol is no identifier. -/
theorem isIdentifier_eq_false (here : token.isSymbol symbol = true) :
    token.isIdentifier = false := by
  unfold isSymbol at here
  unfold isIdentifier
  split at here <;> simp_all

/-- A symbol is no string literal. -/
theorem string?_of_isSymbol (here : token.isSymbol symbol = true) :
    token.kind.string? = none := by
  unfold isSymbol at here
  unfold TokenKind.string?
  split <;> simp_all

/-- An identifier is no string literal. -/
theorem string?_of_isIdentifier (here : token.isIdentifier = true) :
    token.kind.string? = none := by
  unfold isIdentifier at here
  unfold TokenKind.string?
  split <;> simp_all

/-- An opening parenthesis opens one more. -/
theorem nest_open (here : token.isSymbol "(" = true) (opened : Nat) :
    token.nest opened = some (opened + 1) := by
  unfold nest
  rw [if_pos here]

/-- A closing parenthesis closes one that is open. -/
theorem nest_close (here : token.isSymbol ")" = true) (opened : Nat) :
    token.nest (opened + 1) = some opened := by
  unfold nest
  rw [isSymbol_eq_false here (by decide), if_neg Bool.false_ne_true, if_pos here]

/-- A closing parenthesis that closes nothing breaks the nesting. -/
theorem nest_close_zero (here : token.isSymbol ")" = true) : token.nest 0 = none := by
  unfold nest
  rw [isSymbol_eq_false here (by decide), if_neg Bool.false_ne_true, if_pos here]

/-- Any other symbol leaves the parentheses as they are. -/
theorem plain_of_isSymbol (here : token.isSymbol symbol = true)
    (notOpen : symbol ≠ "(") (notClose : symbol ≠ ")") : token.Plain := by
  intro opened
  unfold nest
  rw [isSymbol_eq_false here notOpen, isSymbol_eq_false here notClose,
    string?_of_isSymbol here]
  rfl

/-- A token that is neither a symbol nor a string literal leaves the parentheses as they
are. -/
theorem plain_of_kind (noSymbol : ∀ symbol, token.isSymbol symbol = false)
    (noString : token.kind.string? = none) : token.Plain := by
  intro opened
  unfold nest
  rw [noSymbol, noSymbol, noString]
  rfl

theorem plain_of_isIdentifier (here : token.isIdentifier = true) : token.Plain := by
  refine plain_of_kind (fun symbol => ?_) (string?_of_isIdentifier here)
  unfold isIdentifier at here
  unfold isSymbol
  split <;> simp_all

theorem plain_of_num {value : Int} (here : token.kind = .num value) : token.Plain := by
  refine plain_of_kind (fun symbol => ?_) (by rw [here]; rfl)
  unfold isSymbol
  rw [here]

/-- No string literal stands where parentheses are counted. -/
theorem string?_of_nest {opened after : Nat} (nested : token.nest opened = some after) :
    token.kind.string? = none := by
  unfold nest at nested
  split at nested
  · exact string?_of_isSymbol ‹_›
  · split at nested
    · exact string?_of_isSymbol ‹_›
    · split at nested
      · cases nested
      · simp_all

end Token

/-- Parentheses are counted through one range of tokens and on through the next. -/
theorem nesting_append (opened : Nat) (first second : List Token) :
    nesting opened (first ++ second) =
      (nesting opened first).bind fun middle => nesting middle second :=
  List.foldlM_append

theorem nesting_singleton (opened : Nat) (token : Token) :
    nesting opened [token] = token.nest opened := by
  change (token.nest opened).bind some = _
  exact Option.bind_fun_some _

/-- Tokens with balanced parentheses hold no string literal. -/
theorem strings_of_nesting {list : List Token} {opened after : Nat}
    (nested : nesting opened list = some after) :
    list.filterMap (·.kind.string?) = [] := by
  induction list generalizing opened with
  | nil => rfl
  | cons token rest hypothesis =>
      obtain ⟨middle, first, second⟩ := Option.bind_eq_some_iff.mp nested
      rw [List.filterMap_cons, Token.string?_of_nest first]
      exact hypothesis second

/-- Behind a range of balanced parentheses that is closed by one more there is no other
such range from the same start. -/
theorem TokenStream.le_of_nesting {tokens : TokenStream} {start stop other : Nat}
    (forward : start ≤ stop)
    (balanced : nesting 0 (tokens.between start stop) = some 0)
    (closed : (tokens.get stop).isSymbol ")" = true)
    (alsoBalanced : nesting 0 (tokens.between start other) = some 0) :
    other ≤ stop := by
  by_contra beyond
  have further : stop + 1 ≤ other := Nat.lt_of_not_le beyond
  rw [← between_append (Nat.le_succ_of_le forward) further,
    ← between_append forward (Nat.le_succ stop), between_succ, nesting_append,
      nesting_append,
    balanced] at alsoBalanced
  change ((nesting 0 [tokens.get stop]).bind _) = _ at alsoBalanced
  rw [nesting_singleton, Token.nest_close_zero closed] at alsoBalanced
  cases alsoBalanced

namespace Grammar

/-- A range of tokens that has been read, with the number of open parentheses before and
behind it. -/
structure Spanned (tokens : TokenStream) (opened closed : Nat)
    (before after : State) : Prop where
  same : after.tokens = tokens
  cursor : after.pos ≤ tokens.last
  forward : before.pos ≤ after.pos
  nested : nesting opened (tokens.between before.pos after.pos) = some closed

/-- A range behind a range that was read. -/
theorem Spanned.trans {tokens : TokenStream} {opened middle closed : Nat}
    {before between after : State}
    (first : Spanned tokens opened middle before between)
    (second : Spanned tokens middle closed between after) :
    Spanned tokens opened closed before after where
  same := second.same
  cursor := second.cursor
  forward := Nat.le_trans first.forward second.forward
  nested := by
    rw [← TokenStream.between_append first.forward second.forward,
      nesting_append, first.nested]
    exact second.nested

/-- The cursor moves behind one token. -/
theorem Spanned.next {tokens : TokenStream} {opened closed : Nat} {state : State}
    (own : state.tokens = tokens) (further : state.pos < tokens.last)
    (nested : state.current.nest opened = some closed) :
    Spanned tokens opened closed state state.next where
  same := own
  cursor := further
  forward := Nat.le_succ _
  nested := by
    rw [State.next_pos, TokenStream.between_succ, nesting_singleton, ← own]
    exact nested

/-- From a state a parser that gives a result reads such a range. -/
def SpansAt {α : Type} (tokens : TokenStream) (state : State) (opened closed : Nat)
    (parser : Parser α) : Prop :=
  state.tokens = tokens -> state.pos ≤ tokens.last ->
    ∀ value after, parser state = .ok value after ->
    Spanned tokens opened closed state after

/-- A parser that from every state reads such a range. -/
def Spans {α : Type} (tokens : TokenStream) (opened closed : Nat) (parser : Parser α) :
    Prop :=
  ∀ state, SpansAt tokens state opened closed parser

variable {tokens : TokenStream} {opened middle closed : Nat}
    {state : State} {α β σ : Type}

/-- A parser that leaves the cursor alone. -/
def Still (parser : Parser α) : Prop :=
  ∀ state value after, parser state = .ok value after ->
    after.tokens = state.tokens ∧ after.pos = state.pos

namespace Still

theorem of_error {parser : Parser α} (fails : ∀ state, ∃ error after,
    parser state = .error error after) : Still parser := by
  intro state value after run
  obtain ⟨error, reached, failed⟩ := fails state
  cases failed.symm.trans run

/-- Two parsers leave the cursor alone if both of them do. -/
theorem bind {parser : Parser α} {rest : α -> Parser β} (first : Still parser)
    (second : ∀ value, Still (rest value)) : Still (parser >>= rest) := by
  intro state value after run
  obtain ⟨given, between, firstRun, secondRun⟩ := bind_ok run
  obtain ⟨sameTokens, samePos⟩ := first state given between firstRun
  obtain ⟨lastTokens, lastPos⟩ := second given between value after secondRun
  exact ⟨lastTokens.trans sameTokens, lastPos.trans samePos⟩

theorem pure (value : α) : Still (Pure.pure value) :=
  fun _ _ _ run => by cases run; exact ⟨rfl, rfl⟩

theorem get : Still get := fun _ _ _ run => by cases run; exact ⟨rfl, rfl⟩

theorem throw (error : Error) : Still (throw error : Parser α) :=
  of_error fun _ => ⟨_, _, rfl⟩

theorem failAt (index : Nat) (cause : Cause) : Still (failAt index cause : Parser α) :=
  of_error fun _ => ⟨_, _, rfl⟩

theorem ite {condition : Prop} [Decidable condition] {left right : Parser α}
    (first : Still left) (second : Still right) :
    Still (if condition then left else right) := by
  split
  · exact first
  · exact second

theorem modify {change : State -> State}
    (same : ∀ state, (change state).tokens = state.tokens ∧
      (change state).pos = state.pos) :
    Still (modify change) :=
  fun state _ _ run => by cases run; exact same state

theorem modifyScopes (change : Scopes -> Scopes) : Still (modifyScopes change) :=
  .modify fun _ => ⟨rfl, rfl⟩

theorem enterTy (enter : TypeTable -> TyId × TypeTable) : Still (enterTy enter) :=
  fun _ _ _ run => by cases run; exact ⟨rfl, rfl⟩

/-- A lookup in the program leaves the cursor alone. -/
theorem query (read : Program -> Except Error α) : Still (query read) := by
  refine .bind .get fun state => ?_
  cases read state.program with
  | ok found => exact .pure found
  | error error => exact .throw error

theorem lookupTy (id : TyId) : Still (lookupTy id) := .query _

theorem position : Still position := .bind .get fun _ => .pure _

/-- An array type is entered without reading on. -/
theorem arrayOf (element : TyId) (length : Int) (tok : Nat) (cause : TypingError) :
    Still (arrayOf element length tok cause) := by
  refine .bind .get fun state => ?_
  split
  · exact .bind (.modify fun _ => ⟨rfl, rfl⟩) fun _ => .pure _
  · exact .failAt _ _
  · exact .throw _

theorem parameterTy (id : TyId) : Still (parameterTy id) := by
  refine .bind (.lookupTy id) fun ty => ?_
  split
  · exact .enterTy _
  · exact .pure _

theorem requireName (declared : Declarator) : Still declared.requireName := by
  unfold Declarator.requireName
  split
  · exact .pure _
  · exact .failAt _ _

/-- A tag is looked up behind its token. -/
theorem taggedAggregate (form : Form) (tag : String) (tok : Nat) :
    Still (taggedAggregate form tag tok) := by
  refine .bind .get fun state => ?_
  split
  · exact .failAt _ _
  · exact .bind (.lookupTy _) fun _ => .ite (.pure _) (.failAt _ _)

theorem taggedEnum (tag : String) (tok : Nat) : Still (taggedEnum tag tok) := by
  refine .bind .get fun state => ?_
  split
  · exact .failAt _ _
  · exact .bind (.lookupTy _) fun _ => .ite (.pure _) (.failAt _ _)

/-- A tag is bound without reading on. -/
theorem bindTag (tag : Option (String × Nat)) (ty : TyId) : Still (bindTag tag ty) := by
  unfold Grammar.bindTag
  split
  · exact .modifyScopes _
  · exact .pure _

/-- A member is remembered without reading on. -/
theorem addField (fields : List Field) (declared : Declarator) (tok : Nat) :
    Still (addField fields declared tok) :=
  .bind (.lookupTy _) fun _ =>
    .ite (.bind (.failAt _ _) fun _ => .bind .get fun _ => .pure _)
      (.bind .get fun _ => .pure _)

/-- A struct or union is completed behind its closing brace. -/
theorem completeTy (id : TyId) (fields : List Field) (tok : Nat) :
    Still (completeTy id fields tok) := by
  refine .bind .get fun state => ?_
  split
  · exact .modify fun _ => ⟨rfl, rfl⟩
  · exact .failAt _ _
  · exact .throw _

end Still

namespace SpansAt

/-- A parser that does not move the cursor. -/
theorem of_same {parser : Parser α}
    (same : ∀ value after, parser state = .ok value after ->
      after.tokens = state.tokens ∧ after.pos = state.pos) :
    SpansAt tokens state opened opened parser := by
  intro own cursor value after run
  obtain ⟨sameTokens, stays⟩ := same value after run
  refine ⟨sameTokens.trans own, ?_, Nat.le_of_eq stays.symm, ?_⟩
  · rw [stays]
    exact cursor
  · rw [stays, TokenStream.between_self]
    rfl

/-- Behind a parser that reads such a range, another reads on. -/
theorem bind {parser : Parser α} {rest : α -> Parser β}
    (first : SpansAt tokens state opened middle parser)
    (second : ∀ value after, parser state = .ok value after ->
      SpansAt tokens after middle closed (rest value)) :
    SpansAt tokens state opened closed (parser >>= rest) := by
  intro own cursor value after run
  obtain ⟨given, between, firstRun, secondRun⟩ := bind_ok run
  have reached := first own cursor given between firstRun
  exact reached.trans
    (second given between firstRun reached.same reached.cursor value after secondRun)

/-- A parser that reads the state first. -/
theorem get_bind {rest : State -> Parser β}
    (second : SpansAt tokens state opened closed (rest state)) :
    SpansAt tokens state opened closed (get >>= rest) :=
  second

/-- A choice between two parsers, each of which may use what was decided. -/
theorem ite {condition : Prop} [Decidable condition] {left right : Parser α}
    (first : condition -> SpansAt tokens state opened closed left)
    (second : ¬ condition -> SpansAt tokens state opened closed right) :
    SpansAt tokens state opened closed (if condition then left else right) := by
  split
  · exact first ‹_›
  · exact second ‹_›

end SpansAt

/-- What does not end the stream stands before the end. -/
theorem lt_last (ended : tokens.eof.kind = .eof) (own : state.tokens = tokens)
    (different : state.current.kind ≠ .eof) : state.pos < tokens.last := by
  apply Nat.lt_of_not_le
  intro beyond
  apply different
  rw [State.current, State.token, own, TokenStream.get_of_last_le beyond, ended]

/-- A symbol is not the end of the source. -/
theorem kind_ne_eof_of_isSymbol {token : Token} {symbol : String}
    (here : token.isSymbol symbol = true) : token.kind ≠ .eof := by
  intro ends
  unfold Token.isSymbol at here
  rw [ends] at here
  cases here

/-- An identifier is not the end of the source. -/
theorem kind_ne_eof_of_isIdentifier {token : Token} (here : token.isIdentifier = true) :
    token.kind ≠ .eof := by
  intro ends
  unfold Token.isIdentifier at here
  rw [ends] at here
  cases here

namespace Spans

/-- A parser that always fails reads every range there is. -/
theorem of_error {parser : Parser α} (fails : ∀ state, ∃ error after,
    parser state = .error error after) : Spans tokens opened closed parser := by
  intro state _ _ value after run
  obtain ⟨error, reached, failed⟩ := fails state
  cases failed.symm.trans run

/-- A parser that leaves the cursor alone reads an empty range. -/
theorem of_still {parser : Parser α} (still : Still parser) :
    Spans tokens opened opened parser :=
  fun state => .of_same (still state)

/-- Two parsers read two ranges, one behind the other. -/
theorem bind {parser : Parser α} {rest : α -> Parser β}
    (first : Spans tokens opened middle parser)
    (second : ∀ value, Spans tokens middle closed (rest value)) :
    Spans tokens opened closed (parser >>= rest) :=
  fun state => .bind (first state) fun value after _ => second value after

theorem pure (value : α) : Spans tokens opened opened (Pure.pure value) :=
  of_still (.pure value)

theorem get : Spans tokens opened opened get := of_still .get

/-- A parser that depends on the state in which it begins. -/
theorem get_bind {rest : State -> Parser β}
    (second : ∀ state, SpansAt tokens state opened closed (rest state)) :
    Spans tokens opened closed (MonadState.get >>= rest) :=
  second

theorem throw (error : Error) : Spans tokens opened closed (throw error : Parser α) :=
  of_error fun _ => ⟨_, _, rfl⟩

theorem failAt (index : Nat) (cause : Cause) :
    Spans tokens opened closed (failAt index cause : Parser α) :=
  of_error fun _ => ⟨_, _, rfl⟩

theorem failHere (cause : Cause) :
    Spans tokens opened closed (failHere cause : Parser α) :=
  of_error fun _ => ⟨_, _, rfl⟩

/-- A choice between two parsers that read such a range. -/
theorem ite {condition : Prop} [Decidable condition] {left right : Parser α}
    (first : Spans tokens opened closed left)
    (second : Spans tokens opened closed right) :
    Spans tokens opened closed (if condition then left else right) := by
  split
  · exact first
  · exact second

/-- A range that is read only under a condition leaves the parentheses as they are. -/
theorem first_if {condition : Prop} [Decidable condition] {parser : Parser Unit}
    {rest : Unit -> Parser β} (first : Spans tokens opened opened parser)
    (second : ∀ value, Spans tokens opened closed (rest value)) :
    Spans tokens opened closed (if condition then parser >>= rest else rest ()) :=
  .ite (.bind first second) (second ())

theorem first_unless {condition : Prop} [Decidable condition] {parser : Parser Unit}
    {rest : Unit -> Parser β} (first : Spans tokens opened opened parser)
    (second : ∀ value, Spans tokens opened closed (rest value)) :
    Spans tokens opened closed (if condition then rest () else parser >>= rest) :=
  .ite (second ()) (.bind first second)

/-- The rounds of a loop keep the parentheses balanced, and the last one may close
some. -/
theorem iterate_closing {start : σ} {round : σ -> Parser (Round σ α)}
    (rounds : ∀ current state, state.tokens = tokens -> state.pos ≤ tokens.last ->
      ∀ result after, round current state = .ok result after ->
        match result with
        | .again _ => Spanned tokens opened opened state after
        | .done _ => Spanned tokens opened closed state after) :
    Spans tokens opened closed (iterate start round) := by
  have bounded (bound : Nat) (current : σ) :
      Spans tokens opened closed (iterateFor round bound current) := by
    induction bound generalizing current with
    | zero => exact .throw _
    | succ bound hypothesis =>
        intro state own cursor value after run
        obtain ⟨result, between, roundRun, restRun⟩ := bind_ok run
        have reached := rounds current state own cursor result between roundRun
        cases result with
        | done found =>
            cases restRun
            exact reached
        | again next =>
            exact reached.trans
              (hypothesis next between reached.same reached.cursor value after restRun)
  exact .bind .get fun _ => bounded _ _

/-- A loop reads such a range if each of its rounds does. -/
theorem iterate {start : σ} {round : σ -> Parser (Round σ α)}
    (rounds : ∀ current, Spans tokens opened opened (round current)) :
    Spans tokens opened opened (iterate start round) := by
  refine iterate_closing fun current state own cursor result after run => ?_
  have reached := rounds current state own cursor result after run
  cases result with
  | again next => exact reached
  | done found => exact reached

end Spans

/-! ## The cursor -/

/-- A number behind its sign. -/
def digits (negative : Bool) : Parser Int := do
  let state ← get
  match state.current.kind with
  | .num value =>
      set { state with pos := state.pos + 1 }
      if negative then negated value else return value
  | _ => failHere (.grammar (.expectedNumber state.current.describe))

/-- A number is read with its sign or without one. -/
theorem number_eq : number = (do if ← accept "-" then digits true else digits false) := by
  unfold number
  refine bind_congr fun negative => ?_
  cases negative <;> rfl

/-- A symbol is consumed, or another parser goes on. -/
theorem SpansAt.accept {symbol : String} {yes no : Parser β}
    (ended : tokens.eof.kind = .eof)
    (nested : ∀ token : Token, token.isSymbol symbol = true ->
      token.nest opened = some middle)
    (first : Spans tokens middle closed yes)
    (second : SpansAt tokens state opened closed no) :
    SpansAt tokens state opened closed (do if ← accept symbol then yes else no) := by
  intro own cursor value after run
  by_cases here : state.sees symbol = true
  · rw [accept_then here] at run
    have further := lt_last ended own (kind_ne_eof_of_isSymbol here)
    have stepped := Spanned.next own further (nested _ here)
    exact stepped.trans (first state.next own further value after run)
  · have other : state.sees symbol = false := by simpa using here
    rw [accept_else other] at run
    exact second own cursor value after run

namespace Spans

/-- A symbol that may stand here is counted if it does. -/
theorem accept {symbol : String} {yes no : Parser β} (ended : tokens.eof.kind = .eof)
    (nested : ∀ token : Token, token.isSymbol symbol = true ->
      token.nest opened = some middle)
    (first : Spans tokens middle closed yes) (second : Spans tokens opened closed no) :
    Spans tokens opened closed (do if ← Grammar.accept symbol then yes else no) :=
  fun state => .accept ended nested first (second state)

/-- A symbol that is no parenthesis. -/
theorem accept_plain {symbol : String} {yes no : Parser β}
    (ended : tokens.eof.kind = .eof) (plain : symbol ≠ "(" ∧ symbol ≠ ")")
    (first : Spans tokens opened closed yes) (second : Spans tokens opened closed no) :
    Spans tokens opened closed (do if ← Grammar.accept symbol then yes else no) :=
  .accept ended (fun _ here => Token.plain_of_isSymbol here plain.1 plain.2 opened) first
    second

/-- A symbol that has to stand here is counted. -/
theorem expect {symbol : String} (ended : tokens.eof.kind = .eof)
    (nested : ∀ token : Token, token.isSymbol symbol = true ->
      token.nest opened = some closed) :
    Spans tokens opened closed (expect symbol) :=
  .accept ended nested (.pure ()) (.bind .get fun _ => .failHere _)

/-- A symbol that is no parenthesis is passed over. -/
theorem expect_plain {symbol : String} (ended : tokens.eof.kind = .eof)
    (plain : symbol ≠ "(" ∧ symbol ≠ ")") :
    Spans tokens opened opened (Grammar.expect symbol) :=
  .expect ended fun _ here => Token.plain_of_isSymbol here plain.1 plain.2 opened

/-- An identifier is passed over. -/
theorem identifier (ended : tokens.eof.kind = .eof) :
    Spans tokens opened opened identifier := by
  intro state own cursor value after run
  by_cases here : state.current.isIdentifier = true
  · rw [identifier_run here] at run
    cases run
    exact .next own (lt_last ended own (kind_ne_eof_of_isIdentifier here))
      (Token.plain_of_isIdentifier here opened)
  · change (if state.current.isIdentifier = true then _ else _ : Parser _)
      state = _ at run
    rw [if_neg here] at run
    cases run

theorem identifier? (ended : tokens.eof.kind = .eof) :
    Spans tokens opened opened identifier? :=
  .bind .get fun _ => .ite (.bind (.identifier ended) fun _ => .pure _) (.pure _)

/-- The digits of a number are one token. -/
theorem digits (ended : tokens.eof.kind = .eof) (negative : Bool) :
    Spans tokens opened opened (digits negative) := by
  refine .get_bind fun state => ?_
  split
  · rename_i value here
    intro own cursor result after run
    have further := lt_last ended own (by simp [here])
    have stepped :=
      @Spanned.next _ opened _ _ own further (Token.plain_of_num here opened)
    have signed : Spans tokens opened opened
        (if negative then negated value else Pure.pure value) :=
      .ite (.ite (.pure _) (.throw _)) (.pure _)
    exact stepped.trans (signed state.next own further result after run)
  · exact failHere _ state

theorem number (ended : tokens.eof.kind = .eof) : Spans tokens opened opened number := by
  rw [number_eq]
  exact .accept_plain ended (by decide) (.digits ended true) (.digits ended false)

end Spans

/-! ## Tokens that begin a type -/

/-- A typedef name is an identifier. -/
theorem State.isIdentifier_of_typedefAt? {index : Nat}
    (known : (state.typedefAt? index).isSome = true) :
    (state.token index).isIdentifier = true := by
  unfold State.typedefAt? at known
  dsimp only at known
  split at known
  · assumption
  · cases known

/-- A token that begins a type name is plain. -/
theorem State.plain_of_startsType {index : Nat} (starts : state.startsType index = true) :
    (state.token index).Plain := by
  unfold State.startsType at starts
  rcases Bool.or_eq_true_iff.mp starts with keyword | named
  · obtain ⟨word, listed, here⟩ := List.any_eq_true.mp keyword
    have noParenthesis : word ≠ "(" ∧ word ≠ ")" := by
      have all : ∀ word ∈ typeKeywords, word ≠ "(" ∧ word ≠ ")" := by decide
      exact all word listed
    exact Token.plain_of_isSymbol here noParenthesis.1 noParenthesis.2
  · exact Token.plain_of_isIdentifier (isIdentifier_of_typedefAt? named)

/-- A token that begins a type name is a word. -/
theorem State.word_of_startsType {index : Nat} (starts : state.startsType index = true) :
    (∃ word, (state.token index).isSymbol word = true) ∨
      (state.token index).isIdentifier = true := by
  unfold State.startsType at starts
  rcases Bool.or_eq_true_iff.mp starts with keyword | named
  · obtain ⟨word, -, here⟩ := List.any_eq_true.mp keyword
    exact .inl ⟨word, here⟩
  · exact .inr (isIdentifier_of_typedefAt? named)

/-- Where a type begins is in front of the end of the source. -/
theorem State.lt_last_of_startsType (ended : tokens.eof.kind = .eof)
    (own : state.tokens = tokens) (starts : state.startsType state.pos = true) :
    state.pos < tokens.last := by
  rcases word_of_startsType starts with ⟨word, here⟩ | here
  · exact lt_last ended own (kind_ne_eof_of_isSymbol here)
  · exact lt_last ended own (kind_ne_eof_of_isIdentifier here)

/-- No type begins with a string literal. -/
theorem State.string?_of_startsType {index : Nat}
    (starts : state.startsType index = true) :
    (state.token index).kind.string? = none := by
  rcases word_of_startsType starts with ⟨word, here⟩ | here
  · exact Token.string?_of_isSymbol here
  · exact Token.string?_of_isIdentifier here

/-- In front of the end the cursor moves to the next token. -/
theorem advance_run (further : state.pos < state.tokens.last) :
    advance state = .ok () state.next := by
  change EStateM.Result.ok () { state with pos := if _ then _ else _ } = _
  rw [if_pos further]
  rfl

/-- At the end the cursor stays. -/
theorem advance_stays (atEnd : ¬ state.pos < state.tokens.last) :
    advance state = .ok () state := by
  change EStateM.Result.ok () { state with pos := if _ then _ else _ } = _
  rw [if_neg atEnd]

/-- A plain token is skipped. -/
theorem SpansAt.advance (plain : state.current.Plain) :
    SpansAt tokens state opened opened advance := by
  intro own cursor value after run
  by_cases further : state.pos < state.tokens.last
  · rw [advance_run further] at run
    cases run
    exact .next own (own ▸ further) (plain opened)
  · rw [advance_stays further] at run
    cases run
    exact Spans.pure () state own cursor () state rfl

/-- A check in front of a parser. -/
theorem SpansAt.first_if {condition : Prop} [Decidable condition] {cause : Cause}
    {rest : Unit -> Parser β} (second : SpansAt tokens state opened closed (rest ())) :
    SpansAt tokens state opened closed
      (if condition then failHere cause >>= rest else rest ()) :=
  .ite (fun _ => Spans.of_error (fun _ => ⟨_, _, rfl⟩) state) fun _ => second

/-- A rejection unless a condition holds, in front of a parser. -/
theorem SpansAt.first_unless {condition : Prop} [Decidable condition] {cause : Cause}
    {rest : Unit -> Parser β} (second : SpansAt tokens state opened closed (rest ())) :
    SpansAt tokens state opened closed
      (if condition then rest () else failHere cause >>= rest) :=
  .ite (fun _ => second) fun _ => Spans.of_error (fun _ => ⟨_, _, rfl⟩) state

/-- A storage class is one word. -/
theorem SpansAt.storageClass (plain : state.current.Plain) (allowed : Bool)
    (storage : Storage) :
    SpansAt tokens state opened opened (storageClass allowed storage) :=
  .first_unless <| .get_bind <| .first_if <|
    .bind (.advance plain) fun _ after _ => Spans.pure _ after

/-- A word of a basic type is one token. -/
theorem SpansAt.typeWord (plain : state.current.Plain) (seen : Specifiers) :
    SpansAt tokens state opened opened (typeWord seen) := by
  refine .get_bind ?_
  split
  · exact Spans.failHere _ state
  · exact .bind (.advance plain) fun _ after _ => Spans.pure _ after

/-! ## Specifiers and declarators -/

/-- Productions that read balanced parentheses. -/
structure Productions.Balanced (tokens : TokenStream) (again : Productions) : Prop where
  specifiers : ∀ allowed opened, Spans tokens opened opened (again.specifiers allowed)
  declarator : ∀ ty opened, Spans tokens opened opened (again.declarator ty)
  suffix : ∀ ty opened, Spans tokens opened opened (again.suffix ty)

section

variable {again : Productions} (balanced : again.Balanced tokens)
  (ended : tokens.eof.kind = .eof)

include ended

namespace Spans

/-- The stars of a declarator are no parentheses. -/
theorem pointers (base : TyId) : Spans tokens opened opened (pointers base) :=
  .iterate fun _ => .accept_plain ended (by decide)
    (.of_still (.bind (.enterTy _) fun _ => .pure _)) (.pure _)

/-- A constant is a name, and a number behind an equals sign. -/
theorem enumConstant (ty : TyId) (next : Option Int) :
    Spans tokens opened opened (enumConstant ty next) := by
  refine .bind (.identifier ended) fun named => ?_
  have declared (value : Int) : Spans tokens opened opened (do
      Grammar.modifyScopes (·.declareVariable named.1 (.enumConstant ty value))
      return Extent.add? value 1) :=
    .of_still (.bind (.modifyScopes _) fun _ => .pure _)
  refine .accept_plain ended (by decide) (.bind (.number ended) declared) ?_
  split
  · exact .bind (.pure _) declared
  · exact .bind (.failAt _ _) declared

/-- The constants up to the closing brace. -/
theorem enumConstants (ty : TyId) : Spans tokens opened opened (enumConstants ty) := by
  refine .iterate fun _ => .accept_plain ended (by decide) (.pure _) (.ite ?_ ?_)
  · exact .bind (.enumConstant ended ty _) fun _ => .pure _
  · exact .bind (.expect_plain ended (by decide)) fun _ => .accept_plain ended (by decide)
      (.pure _) (.bind (.enumConstant ended ty _) fun _ => .pure _)

/-- The constants of an enumeration between braces. -/
theorem enumBody (tag : Option (String × Nat)) :
    Spans tokens opened opened (enumBody tag) :=
  .bind (.expect_plain ended (by decide)) fun _ => .bind (.of_still (.enterTy _)) fun _ =>
    .bind (.enumConstants ended _) fun _ => .bind (.of_still (.bindTag _ _))
      fun _ => .pure _

/-- An enumeration with its tag or its constants. -/
theorem enumeration : Spans tokens opened opened enumeration := by
  refine .bind (.identifier? ended) fun tag => .bind .get fun state => ?_
  split
  · exact .of_still (.taggedEnum _ _)
  · exact .enumBody ended _

include balanced

omit ended in
/-- A parameter closes the parentheses that it opens. -/
theorem parameter : Spans tokens opened opened (parameter again) :=
  .bind (balanced.specifiers false opened) fun _ =>
    .bind (balanced.declarator _ opened) fun _ =>
    .bind (.of_still (.parameterTy _)) fun _ => .pure _

/-- A parameter list closes the parenthesis that was opened in front of it. -/
theorem parameters (result : TyId) :
    Spans tokens (opened + 1) opened (parameters again result) := by
  refine .get_bind fun state => .ite (fun emptyList => ?_) fun _ => ?_
  · intro own cursor value after run
    have ⟨void, close⟩ := Bool.and_eq_true_iff.mp emptyList
    have first := lt_last ended own (kind_ne_eof_of_isSymbol void)
    have second := @lt_last _ state.next ended own (kind_ne_eof_of_isSymbol close)
    rw [bind_run (advance_run (own ▸ first)),
      bind_run (advance_run (own ▸ second))] at run
    have passed : Spanned tokens (opened + 1) (opened + 1) state state.next :=
      .next own first (Token.plain_of_isSymbol void (by decide) (by decide) _)
    have closed : Spanned tokens (opened + 1) opened state.next state.next.next :=
      .next own second (Token.nest_close close opened)
    exact (passed.trans closed).trans
      (of_still (.enterTy _) state.next.next own second value after run)
  · refine .bind
      (Spans.iterate_closing (fun params current own cursor result after run => ?_) state)
      fun _ _ _ => Spans.of_still (.enterTy _) _
    by_cases here : current.sees ")" = true
    · rw [accept_then here] at run
      cases run
      exact .next own (lt_last ended own (kind_ne_eof_of_isSymbol here))
        (Token.nest_close here opened)
    · rw [accept_else (by simpa using here)] at run
      split at run
      · obtain ⟨param, _, one, done⟩ := bind_ok run
        cases done
        exact parameter balanced current own cursor param after one
      · obtain ⟨_, between, comma, run⟩ := bind_ok run
        obtain ⟨param, _, one, done⟩ := bind_ok run
        cases done
        have separating : Spans tokens (opened + 1) (opened + 1) (Grammar.expect ",") :=
          .expect_plain ended (by decide)
        have separated := separating current own cursor _ between comma
        exact separated.trans
          (parameter balanced between separated.same separated.cursor param after one)

/-- The length of an array between brackets, and the suffix behind it. -/
theorem arraySuffix (ty : TyId) : Spans tokens opened opened (arraySuffix again ty) :=
  .bind (.of_still .position) fun _ => .bind (.number ended) fun _ =>
    .first_if (.failAt _ _) fun _ => .bind (.expect_plain ended (by decide)) fun _ =>
      .bind (balanced.suffix ty opened) fun _ => .bind (.of_still (.lookupTy _)) fun _ =>
        .first_if (.failAt _ _) fun _ => .of_still (.arrayOf _ _ _ _)

/-- A list of parameters closes the parenthesis in front of it. -/
theorem suffix (ty : TyId) : Spans tokens opened opened (suffix again ty) :=
  .accept ended (fun _ here => Token.nest_open here opened)
    (.parameters balanced ended ty) <|
    .accept_plain ended (by decide) (.arraySuffix balanced ended ty) (.pure _)

end Spans

end

/-- The steps of a declarator in parentheses. -/
theorem nestedDeclarator_ok {again : Productions} {ty : TyId} {declared : Declarator}
    {after : State} (further : state.pos < state.tokens.last)
    (run : nestedDeclarator again ty state = .ok declared after) :
    ∃ trial first second outer third fourth,
      again.declarator .int state.next = .ok trial first ∧
      expect ")" first = .ok () second ∧
      suffix again ty second = .ok outer third ∧
      again.declarator outer { third with pos := min state.next.pos third.tokens.last } =
        .ok declared fourth ∧
      after = { fourth with pos := min third.pos fourth.tokens.last } := by
  obtain ⟨_, _, moved, run⟩ := bind_ok run
  rw [advance_run further] at moved
  cases moved
  obtain ⟨inner, _, found, run⟩ := bind_ok run
  cases found
  obtain ⟨trial, first, firstReading, run⟩ := bind_ok run
  obtain ⟨_, second, closing, run⟩ := bind_ok run
  obtain ⟨outer, third, suffixed, run⟩ := bind_ok run
  obtain ⟨stop, _, found, run⟩ := bind_ok run
  cases found
  obtain ⟨_, _, sought, run⟩ := bind_ok run
  cases sought
  obtain ⟨again, fourth, secondReading, run⟩ := bind_ok run
  obtain ⟨_, last, restored, run⟩ := bind_ok run
  cases restored
  cases run
  exact ⟨trial, first, second, outer, third, fourth, firstReading, closing, suffixed,
    secondReading, rfl⟩

section

variable {again : Productions} (balanced : again.Balanced tokens)
  (ended : tokens.eof.kind = .eof)

include balanced ended

/-- What is read of a declarator in parentheses: it is read twice, and the second reading
ends before the parenthesis that closes the first. -/
theorem SpansAt.nestedDeclarator (here : state.sees "(" = true) (ty : TyId) :
    SpansAt tokens state opened opened (nestedDeclarator again ty) := by
  intro own cursor declared after run
  have further := lt_last ended own (kind_ne_eof_of_isSymbol here)
  obtain ⟨trial, first, second, outer, third, fourth, firstReading, closing, suffixed,
    secondReading, rfl⟩ := nestedDeclarator_ok (own ▸ further) run
  have opening : Spanned tokens opened (opened + 1) state state.next :=
    .next own further (Token.nest_open here opened)
  have read :=
    balanced.declarator .int (opened + 1) state.next own further _ _ firstReading
  have closed := Spans.expect ended
    (fun _ here => Token.nest_close here opened) _ read.same read.cursor _ _ closing
  have suffixes : Spanned tokens opened opened second third :=
    Spans.suffix balanced ended ty second closed.same closed.cursor _ _ suffixed
  have whole := ((opening.trans read).trans closed).trans suffixes
  have back : min state.next.pos third.tokens.last ≤ tokens.last := by
    rw [suffixes.same]
    exact Nat.min_le_right _ _
  have reread := balanced.declarator outer 0
    { third with pos := min state.next.pos third.tokens.last } suffixes.same back _ _
    secondReading
  have stop : min third.pos fourth.tokens.last = third.pos := by
    rw [reread.same]
    exact Nat.min_eq_left suffixes.cursor
  rw [stop]
  exact ⟨reread.same, whole.cursor, whole.forward, whole.nested⟩

namespace Spans

/-- A declarator closes the parentheses that it opens. -/
theorem declarator (base : TyId) :
    Spans tokens opened opened (declarator again base) := by
  refine .bind (.of_still .position) fun _ => .bind (.pointers ended base) fun _ =>
    .get_bind fun state => ?_
  refine .ite (fun nested => ?_) fun _ => ?_
  · have here := (Bool.and_eq_true_iff.mp nested).1
    exact .bind (.nestedDeclarator balanced ended here _)
      fun _ after _ => Spans.pure _ after
  · exact Spans.bind (.identifier? ended) (fun _ =>
      .bind (.suffix balanced ended _) fun _ => .pure _) state

/-- Declarators up to a semicolon. -/
theorem declaratorList {start : σ} {extend : σ -> Declarator -> Nat -> Parser σ}
    (each : ∀ result declared tok,
      Spans tokens opened opened (extend result declared tok))
    (base : TyId) :
    Spans tokens opened opened (declaratorList again base start extend) :=
  .iterate fun _ => .accept_plain ended (by decide) (.pure _) <|
    .first_unless (.expect_plain ended (by decide)) fun _ =>
      .bind (.declarator balanced ended base) fun _ =>
        .bind (.of_still (.requireName _)) fun _ => .bind (each _ _ _) fun _ => .pure _

/-- The members up to the closing brace. -/
theorem fieldList : Spans tokens opened opened (fieldList again) :=
  .iterate fun _ => .accept_plain ended (by decide) (.pure _) <|
    .bind (balanced.specifiers false opened) fun _ =>
      .bind (.declaratorList balanced ended (fun _ _ _ => .of_still (.addField _ _ _)) _)
        fun _ => .pure _

/-- The members of a struct or union between braces. -/
theorem aggregateBody (form : Form) (tag : Option (String × Nat)) :
    Spans tokens opened opened (aggregateBody again form tag) :=
  .bind (.of_still .position) fun _ => .bind (.expect_plain ended (by decide)) fun _ =>
    .bind (.of_still (.enterTy _)) fun _ => .bind (.of_still (.bindTag _ _)) fun _ =>
      .bind (.fieldList balanced ended) fun _ => .bind (.of_still (.completeTy _ _ _))
        fun _ => .pure _

/-- A struct or union with its tag or its members. -/
theorem aggregate (form : Form) : Spans tokens opened opened (aggregate again form) := by
  refine .bind (.identifier? ended) fun tag => .bind .get fun state => ?_
  split
  · exact .of_still (.taggedAggregate _ _ _)
  · exact .aggregateBody balanced ended _ _

end Spans

/-- A type that begins with a keyword for tags, or the name of a type. -/
theorem SpansAt.namedTy (plain : state.current.Plain) (typedef : Option TyId) :
    SpansAt tokens state opened opened (namedTy again typedef) := by
  have word {symbol : String} (other : symbol ≠ "(" ∧ symbol ≠ ")") (token : Token)
      (here : token.isSymbol symbol = true) : token.nest opened = some opened :=
    Token.plain_of_isSymbol here other.1 other.2 opened
  exact .accept ended (word (by decide)) (.aggregate balanced ended .struct) <|
    .accept ended (word (by decide)) (.aggregate balanced ended .union) <|
      .accept ended (word (by decide)) (.enumeration ended) <|
        .bind (.advance plain) fun _ after _ => Spans.pure _ after

/-- Specifiers close the parentheses that they open. -/
theorem Spans.specifiers (allowed : Bool) :
    Spans tokens opened opened (specifiers again allowed) := by
  refine .iterate fun seen => .get_bind fun state => ?_
  refine .ite (fun _ => Spans.pure _ state) fun starts => ?_
  have plain : state.current.Plain := State.plain_of_startsType (by simpa using starts)
  refine .ite (fun _ => ?_) fun _ => .ite (fun _ => ?_) fun _ => ?_
  · exact .bind (.storageClass plain _ _) fun _ after _ => Spans.pure _ after
  · refine .ite (fun _ => Spans.pure _ state) fun _ => ?_
    exact .bind (.namedTy balanced ended plain _) fun _ after _ => Spans.pure _ after
  · exact .bind (.typeWord plain _) fun _ after _ => Spans.pure _ after

end

/-- Productions read balanced parentheses to every depth. -/
theorem productions_balanced (ended : tokens.eof.kind = .eof) (depth : Nat) :
    (productions depth).Balanced tokens := by
  induction depth with
  | zero => exact ⟨fun _ _ => .throw _, fun _ _ => .throw _, fun _ _ => .throw _⟩
  | succ depth hypothesis =>
      exact
        { specifiers := fun allowed _ => .specifiers hypothesis ended allowed
          declarator := fun ty _ => .declarator hypothesis ended ty
          suffix := fun ty _ => .suffix hypothesis ended ty }

end Grammar
end MiniC
