import MiniC.Grammar.Productions
import MiniC.Proofs.Program.Names

/-!
# What parsers end in

`Meets tokens parser state post` says that a parser started in a state either gives a
result and a state with the postcondition, or rejects the source text at one of its
tokens.  There is a rule for each way in which parsers are put together; the one for
loops asks for an invariant and a measure that each round lowers.
-/

namespace MiniC

/-- Tokens as the lexer cuts them: the last one ends the stream, numbers have a negative
in the range of a signed word, and identifiers have no dot. -/
structure TokenStream.Sound (tokens : TokenStream) : Prop where
  ended : tokens.eof.kind = .eof
  numbers : ∀ index value, (tokens.get index).kind = .num value ->
    Extent.InRange value ∧ Extent.InRange (-value)
  identifiers : ∀ index, (tokens.get index).kind = .identifier ->
    Undotted (tokens.get index).text

namespace TokenStream.Sound

variable {tokens : TokenStream}

/-- A token that does not end the stream stands before the end. -/
theorem lt_last
    (sound : tokens.Sound)
    {index : Nat}
    (different : (tokens.get index).kind ≠ .eof) :
    index < tokens.last := by
  apply Nat.lt_of_not_le
  intro beyond
  apply different
  rw [get_of_last_le beyond]
  exact sound.ended

theorem undotted
    (sound : tokens.Sound)
    {index : Nat}
    (identifier : (tokens.get index).isIdentifier = true) :
    Undotted (tokens.get index).text :=
  sound.identifiers index (by simpa [Token.isIdentifier] using identifier)

end TokenStream.Sound

namespace Grammar

namespace State

/-- The state behind the token at the cursor. -/
def next (state : State) : State := { state with pos := state.pos + 1 }

@[simp] theorem next_tokens (state : State) : state.next.tokens = state.tokens := rfl

@[simp] theorem next_pos (state : State) : state.next.pos = state.pos + 1 := rfl

@[simp] theorem next_program (state : State) : state.next.program = state.program := rfl

@[simp] theorem next_scopes (state : State) : state.next.scopes = state.scopes := rfl

@[simp] theorem next_function (state : State) :
    state.next.function = state.function := rfl

end State

/-- An error that rejects the source text at one of its tokens. -/
def RejectsAt (tokens : TokenStream) (error : Error) : Prop :=
  ∃ cause index, error = .rejected cause (tokens.get index).loc

/-- A parser started in a state gives a result with the postcondition or rejects the
source text at a token. -/
def Meets {α : Type} (tokens : TokenStream) (parser : Parser α) (state : State)
    (post : α -> State -> Prop) : Prop :=
  match parser state with
  | .ok value after => post value after
  | .error error _ => RejectsAt tokens error

namespace Meets

variable {α β σ : Type} {tokens : TokenStream} {state : State}

theorem pure
    {value : α}
    {post : α -> State -> Prop}
    (holds : post value state) :
    Meets tokens (pure value) state post :=
  holds

/-- The postcondition may be weakened. -/
theorem weaken
    {parser : Parser α}
    {post other : α -> State -> Prop}
    (meets : Meets tokens parser state post)
    (implies : ∀ value after, post value after -> other value after) :
    Meets tokens parser state other := by
  unfold Meets at meets ⊢
  split <;> simp_all

/-- One parser behind another. -/
theorem bind
    {parser : Parser α}
    {rest : α -> Parser β}
    {middle : α -> State -> Prop}
    {post : β -> State -> Prop}
    (first : Meets tokens parser state middle)
    (second : ∀ value after, middle value after -> Meets tokens (rest value) after post) :
    Meets tokens (parser >>= rest) state post := by
  unfold Meets at first ⊢
  have unfolded : (parser >>= rest) state = EStateM.bind parser rest state := rfl
  rw [unfolded, EStateM.bind]
  cases run : parser state with
  | ok value after =>
      rw [run] at first
      exact second value after first
  | error error after =>
      rw [run] at first
      exact first

/-- A parser behind one whose run is known. -/
theorem run
    {parser : Parser α}
    {rest : α -> Parser β}
    {value : α}
    {after : State}
    {post : β -> State -> Prop}
    (known : parser state = .ok value after)
    (second : Meets tokens (rest value) after post) :
    Meets tokens (parser >>= rest) state post := by
  have first : Meets tokens parser state fun other reached =>
      other = value ∧ reached = after := by
    unfold Meets
    rw [known]
    exact ⟨rfl, rfl⟩
  refine bind first ?_
  rintro _ _ ⟨rfl, rfl⟩
  exact second

/-- A parser that reads the state first. -/
theorem get
    {rest : State -> Parser β}
    {post : β -> State -> Prop}
    (second : Meets tokens (rest state) state post) :
    Meets tokens (get >>= rest) state post :=
  run rfl second

/-- A parser that reads the cursor first. -/
theorem position
    {rest : Nat -> Parser β}
    {post : β -> State -> Prop}
    (second : Meets tokens (rest state.pos) state post) :
    Meets tokens (position >>= rest) state post :=
  run rfl second

/-- A parser that moves the cursor first. -/
theorem seek
    {index : Nat}
    {rest : Unit -> Parser β}
    {post : β -> State -> Prop}
    (same : state.tokens = tokens)
    (bounded : index ≤ tokens.last)
    (second : Meets tokens (rest ()) { state with pos := index } post) :
    Meets tokens (seek index >>= rest) state post := by
  have known : Grammar.seek index state = .ok () { state with pos := index } := by
    change EStateM.Result.ok () { state with pos := min index state.tokens.last } = _
    rw [same, Nat.min_eq_left bounded]
  exact run known second

/-- A parser behind a token that is skipped. -/
theorem advance
    {rest : Unit -> Parser β}
    {post : β -> State -> Prop}
    (same : state.tokens = tokens)
    (before : state.pos < tokens.last)
    (second : Meets tokens (rest ()) state.next post) :
    Meets tokens (advance >>= rest) state post := by
  have known : Grammar.advance state = .ok () state.next := by
    change EStateM.Result.ok ()
      { state with
        pos := if state.pos < state.tokens.last then state.pos + 1 else state.pos } = _
    rw [if_pos (by rw [same]; exact before)]
    rfl
  exact run known second

/-- A parser that reads the program first. -/
theorem query
    {read : Program -> Except Error α}
    {rest : α -> Parser β}
    {value : α}
    {post : β -> State -> Prop}
    (known : read state.program = .ok value)
    (second : Meets tokens (rest value) state post) :
    Meets tokens (query read >>= rest) state post := by
  have known : Grammar.query read state = .ok value state := by
    change ofExcept (read state.program) state = _
    rw [known]
    rfl
  exact run known second

/-- Rejecting the source text at a token. -/
theorem failAt
    {index : Nat}
    {cause : Cause}
    {post : α -> State -> Prop}
    (same : state.tokens = tokens) :
    Meets tokens (failAt index cause) state post :=
  ⟨cause, index, by rw [← same]; rfl⟩

/-- Rejecting the source text at the cursor. -/
theorem failHere
    {cause : Cause}
    {post : α -> State -> Prop}
    (same : state.tokens = tokens) :
    Meets tokens (failHere cause) state post :=
  ⟨cause, state.pos, by rw [← same]; rfl⟩

/-- What stands behind a rejection does not matter. -/
theorem failAt_bind
    {index : Nat}
    {cause : Cause}
    {rest : α -> Parser β}
    {post : β -> State -> Prop}
    (same : state.tokens = tokens) :
    Meets tokens (Grammar.failAt index cause >>= rest) state post := by
  have failed :
      Meets tokens (Grammar.failAt (α := α) index cause) state fun _ _ => False :=
    failAt same
  exact bind failed fun _ _ impossible => impossible.elim

/-- A parser behind a check that rejects the source text under a condition. -/
theorem rejectIf
    {condition : Prop}
    [Decidable condition]
    {rejection : Parser Unit}
    {rest : Unit -> Parser β}
    {post : β -> State -> Prop}
    (rejects : Meets tokens rejection state fun _ _ => False)
    (otherwise : ¬condition -> Meets tokens (rest ()) state post) :
    Meets tokens (if condition then rejection >>= rest else rest ()) state post := by
  split
  · exact bind rejects fun _ _ impossible => impossible.elim
  · rename_i fine
    exact otherwise fine

/-- A parser behind a check that rejects the source text unless a condition holds. -/
theorem rejectUnless
    {condition : Prop}
    [Decidable condition]
    {rejection : Parser Unit}
    {rest : Unit -> Parser β}
    {post : β -> State -> Prop}
    (rejects : Meets tokens rejection state fun _ _ => False)
    (otherwise : condition -> Meets tokens (rest ()) state post) :
    Meets tokens (if condition then rest () else rejection >>= rest) state post := by
  split
  · rename_i fine
    exact otherwise fine
  · exact bind rejects fun _ _ impossible => impossible.elim

/-! ## The cursor -/

section Cursor

variable (sound : tokens.Sound) (same : state.tokens = tokens)

include sound same

/-- A punctuator or keyword stands before the end. -/
theorem lt_last_of_sees {symbol : String} (seen : state.sees symbol = true) :
    state.pos < tokens.last := by
  apply sound.lt_last
  intro ended
  simp [State.sees, State.seesAt, Token.isSymbol, State.token, same, ended] at seen

/-- An identifier stands before the end. -/
theorem lt_last_of_isIdentifier (seen : state.current.isIdentifier = true) :
    state.pos < tokens.last := by
  apply sound.lt_last
  intro ended
  simp [State.current, Token.isIdentifier, State.token, same, ended] at seen

/-- A parser behind a symbol that may be consumed. -/
theorem accept
    {symbol : String}
    {rest : Bool -> Parser β}
    {post : β -> State -> Prop}
    (present : state.sees symbol = true -> state.pos < tokens.last ->
      Meets tokens (rest true) state.next post)
    (absent : state.sees symbol = false -> Meets tokens (rest false) state post) :
    Meets tokens (accept symbol >>= rest) state post := by
  cases seen : state.sees symbol with
  | true =>
      have known : Grammar.accept symbol state = .ok true state.next := by
        change (if state.sees symbol = true then _ else _ : Parser Bool) state = _
        rw [if_pos seen]
        rfl
      exact run known (present seen (lt_last_of_sees sound same seen))
  | false =>
      have known : Grammar.accept symbol state = .ok false state := by
        change (if state.sees symbol = true then _ else _ : Parser Bool) state = _
        rw [if_neg (by simp [seen])]
        rfl
      exact run known (absent seen)

/-- A parser behind a symbol that has to be consumed. -/
theorem expect
    {symbol : String}
    {rest : Unit -> Parser β}
    {post : β -> State -> Prop}
    (present : state.sees symbol = true -> state.pos < tokens.last ->
      Meets tokens (rest ()) state.next post) :
    Meets tokens (expect symbol >>= rest) state post := by
  have consumed : Meets tokens (Grammar.expect symbol) state fun _ after =>
      after = state.next ∧ state.sees symbol = true ∧ state.pos < tokens.last := by
    refine accept sound same ?_ ?_
    · intro seen before
      exact pure ⟨rfl, seen, before⟩
    · intro _
      exact get (failHere same)
  refine bind consumed ?_
  rintro _ _ ⟨rfl, seen, before⟩
  exact present seen before

/-- A parser behind an identifier. -/
theorem identifier
    {rest : String × Nat -> Parser β}
    {post : β -> State -> Prop}
    (present : state.current.isIdentifier = true -> state.pos < tokens.last ->
      Meets tokens (rest (state.current.text, state.pos)) state.next post) :
    Meets tokens (identifier >>= rest) state post := by
  cases seen : state.current.isIdentifier with
  | true =>
      have known : Grammar.identifier state =
          .ok (state.current.text, state.pos) state.next := by
        change (if state.current.isIdentifier = true then _ else _ : Parser _) state = _
        rw [if_pos seen]
        rfl
      exact run known (present seen (lt_last_of_isIdentifier sound same seen))
  | false =>
      have failed : Meets tokens Grammar.identifier state fun _ _ => False := by
        refine get ?_
        rw [if_neg (by simp [seen])]
        exact failHere same
      exact bind failed fun _ _ impossible => impossible.elim

/-- A parser behind an identifier that may be consumed. -/
theorem identifier?
    {rest : Option (String × Nat) -> Parser β}
    {post : β -> State -> Prop}
    (present : state.current.isIdentifier = true -> state.pos < tokens.last ->
      Meets tokens (rest (some (state.current.text, state.pos))) state.next post)
    (absent : state.current.isIdentifier = false -> Meets tokens (rest none) state post) :
    Meets tokens (identifier? >>= rest) state post := by
  have known : Grammar.identifier? state =
      (if state.current.isIdentifier = true then some <$> Grammar.identifier
        else Pure.pure none : Parser _) state := by
    change (if state.current.isIdentifier = true then _ else _ : Parser _) state = _
    split
    · rw [bind_pure_comp]
    · rfl
  cases seen : state.current.isIdentifier with
  | true =>
      have taken : Grammar.identifier state =
          .ok (state.current.text, state.pos) state.next := by
        change (if state.current.isIdentifier = true then _ else _ : Parser _) state = _
        rw [if_pos seen]
        rfl
      rw [if_pos seen] at known
      have mapped : (some <$> Grammar.identifier) state =
          .ok (some (state.current.text, state.pos)) state.next := by
        change EStateM.map some Grammar.identifier state = _
        rw [EStateM.map, taken]
      exact run (known.trans mapped)
        (present seen (lt_last_of_isIdentifier sound same seen))
  | false =>
      rw [if_neg (by simp [seen])] at known
      exact run known (absent seen)

/-- A number at the cursor, with or without a sign read before it. -/
theorem signed (negative : Bool) :
    Meets tokens (do
        let state ← MonadState.get
        match state.current.kind with
        | .num value =>
            set { state with pos := state.pos + 1 }
            if negative then negated value else return value
        | _ => Grammar.failHere (.grammar (.expectedNumber state.current.describe)))
      state fun value after =>
        Extent.InRange value ∧ after = state.next ∧ state.pos < tokens.last := by
  refine get ?_
  split
  · rename_i value kind
    have there : (tokens.get state.pos).kind = .num value := by
      rw [← same]
      exact kind
    obtain ⟨inRange, negatedInRange⟩ := sound.numbers state.pos value there
    have before : state.pos < tokens.last := sound.lt_last (by simp [there])
    refine run rfl ?_
    cases negative with
    | true =>
        have known : negated value state.next = .ok (-value) state.next := by
          unfold negated
          rw [if_pos negatedInRange]
          rfl
        have met : Meets tokens (negated value) state.next fun result after =>
            Extent.InRange result ∧ after = state.next ∧ state.pos < tokens.last := by
          unfold Meets
          rw [known]
          exact ⟨negatedInRange, rfl, before⟩
        exact met
    | false => exact pure ⟨inRange, rfl, before⟩
  · exact failHere same

/-- A parser behind a number. -/
theorem number
    {rest : Int -> Parser β}
    {post : β -> State -> Prop}
    (present : ∀ value pos, Extent.InRange value -> state.pos < pos ->
      pos ≤ tokens.last -> Meets tokens (rest value) { state with pos := pos } post) :
    Meets tokens (number >>= rest) state post := by
  have consumed : Meets tokens Grammar.number state fun value after =>
      ∃ pos, Extent.InRange value ∧ state.pos < pos ∧ pos ≤ tokens.last ∧
        after = { state with pos := pos } := by
    refine accept sound same ?_ ?_
    · intro _ _
      refine weaken (signed sound (by simpa using same) true) ?_
      rintro value _ ⟨inRange, rfl, before⟩
      exact ⟨state.pos + 1 + 1, inRange, by omega, before, rfl⟩
    · intro _
      refine weaken (signed sound same false) ?_
      rintro value _ ⟨inRange, rfl, before⟩
      exact ⟨state.pos + 1, inRange, by omega, before, rfl⟩
  refine bind consumed ?_
  rintro value _ ⟨pos, inRange, forward, bounded, rfl⟩
  exact present value pos inRange forward bounded

end Cursor

/-! ## Loops and scopes -/

/-- Rounds of a loop that keep an invariant and lower a measure. -/
theorem iterateFor
    {round : σ -> Parser (Round σ α)}
    {post : α -> State -> Prop}
    (invariant : σ -> State -> Prop)
    (measure : σ -> State -> Nat)
    (keeps : ∀ current state, invariant current state ->
      Meets tokens (round current) state fun result after =>
        match result with
        | .again next => invariant next after ∧ measure next after < measure current state
        | .done value => post value after)
    {bound : Nat}
    {current : σ}
    (holds : invariant current state)
    (enough : measure current state < bound) :
    Meets tokens (iterateFor round bound current) state post := by
  induction bound generalizing current state with
  | zero => omega
  | succ bound hypothesis =>
      refine bind (keeps current state holds) ?_
      intro result after outcome
      cases result with
      | again next => exact hypothesis outcome.1 (by omega)
      | done value => exact pure outcome

/-- A loop whose rounds keep an invariant and lower a measure that the number of tokens
bounds. -/
theorem iterate
    {round : σ -> Parser (Round σ α)}
    {start : σ}
    {post : α -> State -> Prop}
    (invariant : σ -> State -> Prop)
    (measure : σ -> State -> Nat)
    (same : state.tokens = tokens)
    (holds : invariant start state)
    (enough : measure start state < tokens.last + 2)
    (keeps : ∀ current state, invariant current state ->
      Meets tokens (round current) state fun result after =>
        match result with
        | .again next => invariant next after ∧ measure next after < measure current state
        | .done value => post value after) :
    Meets tokens (iterate start round) state post := by
  refine get ?_
  refine iterateFor invariant measure keeps holds ?_
  rw [State.rounds, same]
  exact enough

/-- Items up to a closing parenthesis, separated by commas.  An item may be empty: each
but the first comes behind a comma. -/
theorem commaList
    (sound : tokens.Sound)
    {item : List α -> Parser α}
    (invariant : List α -> State -> Prop)
    (inside : ∀ results current, invariant results current ->
      current.tokens = tokens ∧ current.pos ≤ tokens.last)
    (moves : ∀ results current, invariant results current -> current.pos < tokens.last ->
      invariant results current.next)
    (keeps : ∀ results current, invariant results current -> state.pos ≤ current.pos ->
      Meets tokens (item results) current fun result after =>
        invariant (results ++ [result]) after ∧ current.pos ≤ after.pos)
    (holds : invariant [] state) :
    Meets tokens
      (Grammar.iterate [] fun results => do
        if ← Grammar.accept ")" then
          return .done results
        else
          unless results.isEmpty do
            Grammar.expect ","
          return .again (results ++ [← item results]))
      state invariant := by
  refine iterate (fun results current => invariant results current ∧
    state.pos ≤ current.pos)
    (fun results current => tokens.last - current.pos + if results.isEmpty then 1 else 0)
    (inside [] state holds).1 ⟨holds, Nat.le_refl _⟩ ?_ ?_
  · simp only [List.isEmpty_nil, if_true]
    omega
  rintro results current ⟨now, ahead⟩
  have same := (inside results current now).1
  refine accept sound same ?_ ?_
  · intro _ before
    exact pure (moves results current now before)
  intro _
  rw [if_neg (by simp)]
  cases results with
  | nil =>
      refine bind (keeps [] current now ahead) ?_
      rintro result after ⟨extended, forward⟩
      refine pure ⟨⟨extended, by omega⟩, ?_⟩
      change tokens.last - after.pos < tokens.last - current.pos + 1
      omega
  | cons first rest =>
      refine expect sound same fun _ before => ?_
      refine bind (keeps _ current.next (moves _ current now before)
        (Nat.le_succ_of_le ahead)) ?_
      rintro result after ⟨extended, forward⟩
      rw [State.next_pos] at forward
      refine pure ⟨⟨extended, by omega⟩, ?_⟩
      change tokens.last - after.pos < tokens.last - current.pos
      omega

/-- Parsing inside a scope of its own. -/
theorem withScope
    {parser : Parser α}
    {post : α -> State -> Prop}
    (inner : Meets tokens parser { state with scopes := state.scopes.enter }
      fun value after => post value { after with scopes := after.scopes.leave }) :
    Meets tokens (withScope parser) state post := by
  unfold Meets Grammar.withScope
  unfold Meets at inner
  cases run : parser { state with scopes := state.scopes.enter } with
  | ok value after =>
      rw [run] at inner
      exact inner
  | error error after =>
      rw [run] at inner
      exact inner

/-- Parsers for the rest of a list that keep an invariant of the entries and results so
far. -/
theorem mapM_from
    {parse : β -> Parser α}
    {list done : List β}
    {results : List α}
    (invariant : List β -> List α -> State -> Prop)
    (holds : invariant done results state)
    (keeps : ∀ done results entry state, entry ∈ list -> invariant done results state ->
      Meets tokens (parse entry) state fun result after =>
        invariant (done ++ [entry]) (results ++ [result]) after) :
    Meets tokens (list.mapM parse) state fun more after =>
      invariant (done ++ list) (results ++ more) after := by
  induction list generalizing state done results with
  | nil => exact pure (by simpa using holds)
  | cons entry rest hypothesis =>
      rw [List.mapM_cons]
      refine bind (keeps done results entry state List.mem_cons_self holds) ?_
      intro result after kept
      have later := hypothesis kept fun done results other state member =>
        keeps done results other state (List.mem_cons_of_mem entry member)
      refine bind later fun more reached kept => ?_
      refine pure ?_
      simpa using kept

/-- Parsers for the entries of a list that keep an invariant of the entries and results so
far. -/
theorem mapM
    {parse : β -> Parser α}
    {list : List β}
    (invariant : List β -> List α -> State -> Prop)
    (holds : invariant [] [] state)
    (keeps : ∀ done results entry state, entry ∈ list -> invariant done results state ->
      Meets tokens (parse entry) state fun result after =>
        invariant (done ++ [entry]) (results ++ [result]) after) :
    Meets tokens (list.mapM parse) state (invariant list) :=
  mapM_from invariant holds keeps

/-- Checks of the entries of a list that do not change the state. -/
theorem forM
    {check : β -> Parser PUnit}
    {fact : β -> Prop}
    {list : List β}
    (checks : ∀ entry, Meets tokens (check entry) state fun _ after =>
      after = state ∧ fact entry) :
    Meets tokens (list.forM check) state fun _ after =>
      after = state ∧ ∀ entry ∈ list, fact entry := by
  induction list with
  | nil => exact pure ⟨rfl, by simp⟩
  | cons entry rest hypothesis =>
      refine bind (checks entry) ?_
      rintro _ _ ⟨rfl, own⟩
      refine hypothesis.weaken ?_
      rintro _ _ ⟨rfl, others⟩
      exact ⟨rfl, List.forall_mem_cons.mpr ⟨own, others⟩⟩

end Meets

end Grammar
end MiniC
