import MiniC.Proofs.Grammar.Crossing
import MiniC.Proofs.Grammar.Expansion.Layers

/-!
# Reading an expansion

An expansion consists of operands in parentheses, of operators between them and of
parentheses around the whole.  What the grammar reads there comes to the operands first,
and builds nodes of them when it comes out of the parentheses.  `Window.Reads` says what
is built, and where the cursor stands then.  Where the productions may not recur deep
enough, the parser gives up.
-/

namespace MiniC
namespace Grammar

variable {α β σ : Type} {state there after last : State}

/-! ## Outcomes of runs -/

/-- How a run ends, but for the state in which it fails. -/
def outcome : EStateM.Result Error State α -> Except Error (α × State)
  | .ok value after => .ok (value, after)
  | .error error _ => .error error

theorem outcome_bind (parser : Parser α) (rest : α -> Parser β) (state : State) :
    outcome ((parser >>= rest) state) =
      outcome (parser state) >>= fun ended => outcome (rest ended.1 ended.2) := by
  cases run : parser state with
  | ok value after =>
      rw [bind_run run]
      rfl
  | error error after =>
      rw [bind_fail run]
      rfl

/-- Behind runs that end alike parsers go on alike. -/
theorem outcome_bind_congr {parser other : Parser α} {rest behind : α -> Parser β}
    (first : outcome (parser state) = outcome (other there))
    (second : ∀ value after, other there = .ok value after ->
      outcome (rest value after) = outcome (behind value after)) :
    outcome ((parser >>= rest) state) = outcome ((other >>= behind) there) := by
  rw [outcome_bind, outcome_bind, first]
  cases run : other there with
  | ok value after => exact second value after run
  | error error after => rfl

theorem outcome_bind_endless {parser : Parser α} (rest : α -> Parser β)
    (endless : outcome (parser state) = .error (.fault .endless)) :
    outcome ((parser >>= rest) state) = .error (.fault .endless) := by
  rw [outcome_bind, endless]
  rfl

/-- What a parser builds without looking at the cursor it also builds elsewhere. -/
theorem Sightless.outcome_bind {build : Parser α}
    {rest goes : α -> Parser β} {place : Nat} (sightless : Sightless build)
    (alike : ∀ value after, after.tokens = state.tokens -> after.pos = state.pos ->
      outcome (rest value after) = outcome (goes value (after.at_ place))) :
    outcome ((build >>= rest) state) = outcome ((build >>= goes) (state.at_ place)) := by
  have moved := sightless.moved state place
  cases run : build state with
  | ok value after =>
      rw [run] at moved
      rw [bind_run run, bind_run moved]
      exact alike value after (sightless.tokens _ _ _ run) (sightless.pos run)
  | error error after =>
      rw [run] at moved
      rw [bind_fail run, bind_fail moved]
      rfl

/-- What stands at the cursor, if it stands at its place in the stream. -/
theorem State.sees_at {tokens : TokenStream} {place : Nat} {symbol : String}
    (here : (tokens.get place).isSymbol symbol = true) (same : state.tokens = tokens)
    (pos : state.pos = place) : state.sees symbol = true := by
  unfold State.sees State.seesAt State.token
  rw [same, pos]
  exact here

/-! ## Members -/

/-- Access to a member behind its name. -/
def memberNamed (base : NodeId) (named : String × Nat) : Parser NodeId := do
  let aggregate ← typeOf base
  let ty ← lookupTy aggregate
  unless ty.isAggregate do
    failAt named.2 (.typing .notAggregate)
  match findMember? ty.members named.1 with
  | none => failAt named.2 (.typing (.noSuchMember named.1))
  | some (index, memberTy) => newTyped (.member base aggregate index) memberTy named.2

theorem Sightless.memberNamed (base : NodeId) (named : String × Nat) :
    Sightless (memberNamed base named) := by
  refine .bind (.typeOf _) fun _ => .bind (.lookupTy _) fun ty =>
    .first_unless (.failAt _ _) ?_
  split
  · exact .failAt _ _
  · exact .newTyped _ _ _

/-- A member is looked up behind its name. -/
theorem outcome_memberAccess (base : NodeId)
    (identifier : state.current.isIdentifier = true) :
    outcome (memberAccess base state) =
      outcome (memberNamed base (state.current.text, state.pos) state.next) :=
  (Sightless.typeOf base).outcome_bind fun aggregate after tokens pos => by
    have same : after.current = state.current := by
      unfold State.current State.token
      rw [tokens, pos]
    have here : after.current.isIdentifier = true := same ▸ identifier
    rw [bind_run (identifier_run here), same, ← pos]
    rfl

theorem Twins.memberNamed {w : Window} {calm : Prop} {low : Nat} (base : NodeId)
    (named : String × Nat) :
    Twins w calm low .blind (memberNamed base named)
      (memberNamed (carry w.names base) (carry w.names named)) := by
  refine .bind (.typeOf base) fun _ => .bind (.lookupTy _) fun ty =>
    .first_unless (by simp) (.failAt _ _ _ _) fun _ => ?_
  rw [Ty.carry_members, show (carry w.names named).1 = named.1 from rfl,
    findMember?_carry]
  cases findMember? ty.members named.1 with
  | none => exact .failAt _ _ _ _
  | some found => exact .newTyped (.inl rfl)

namespace Window

variable {w z : Window} [Carried α]

/-- Only the outcome of the other run counts. -/
theorem Ends.of_outcome {result other also : EStateM.Result Error State α}
    (same : outcome also = outcome other) (ends : w.Ends result other) :
    w.Ends result also where
  ok := fun value after run => by
    rcases ends.ok value after run with ⟨last, rfl⟩ | ⟨reached, rfl, linked⟩
    · cases also with
      | ok => cases same
      | error error last =>
          cases same
          exact .inl ⟨last, rfl⟩
    · cases also with
      | ok => cases same; exact .inr ⟨reached, rfl, linked⟩
      | error => cases same
  error := fun whole error after run differs => by
    obtain ⟨reason, last, rfl⟩ := ends.error whole error after run differs
    cases also with
    | ok => cases same
    | error error last => exact ⟨error, last, rfl⟩

/-- Only the outcome of the run counts. -/
theorem Ends.of_own {result own other : EStateM.Result Error State α}
    (same : outcome own = outcome result) (ends : w.Ends result other) :
    w.Ends own other where
  ok := fun value after run => by
    subst run
    cases result with
    | ok => cases same; exact ends.ok value after rfl
    | error => cases same
  error := fun whole error after run differs => by
    subst run
    cases result with
    | ok => cases same
    | error reason last =>
        cases same
        exact ends.error whole error last rfl differs

/-- A run that gives up. -/
theorem Ends.of_outcome_endless {result other : EStateM.Result Error State α}
    (gaveUp : outcome other = .error (.fault .endless)) : w.Ends result other := by
  cases other with
  | ok => cases gaveUp
  | error error last =>
      cases gaveUp
      exact .of_endless rfl

/-! ## What is read -/

/-- A state at the other place goes together with one in the window, wherever its cursor
stands. -/
structure Holds (w : Window) (state : State) (place : Nat) (there : State) : Prop where
  pos : there.pos = place
  linked : w.Linked state (there.at_ (state.pos + w.base - w.low))

theorem Linked.holds (linked : w.Linked state there) : w.Holds state there.pos there where
  pos := rfl
  linked := by
    have same : state.pos + w.base - w.low = there.pos := by
      have := linked.pos
      omega
    rw [same]
    exact linked

theorem Holds.tokens {place : Nat} (holds : w.Holds state place there) :
    there.tokens = w.other :=
  holds.linked.tokens

/-- The cursor may be moved. -/
theorem Holds.move {place : Nat} (holds : w.Holds state place there) (other : Nat) :
    w.Holds state other (there.at_ other) :=
  ⟨rfl, holds.linked⟩

omit [Carried α] in
/-- States that go together in one window go together in another one, with other cursors.
-/
theorem Linked.relocate (linked : z.Linked state there) (tokens : w.tokens = z.tokens)
    (other : w.other = z.other) (names : w.names = z.names)
    (tables : w.Tables state.program there.program)
    (rests : w.plain -> w.anchor.Rests state) {own also : Nat}
    (inside : own ≤ z.tokens.last) (alsoInside : also ≤ z.other.last)
    (reached : w.low ≤ own)
    (pos : also + w.low = own + w.base) : w.Linked (state.at_ own) (there.at_ also) where
  within := tokens ▸ ⟨linked.within.same, inside, linked.within.types⟩
  tokens := other ▸ linked.tokens
  cursor := other ▸ alsoInside
  reached := reached
  pos := pos
  scopes := names ▸ linked.scopes
  function := names ▸ linked.function
  literals := linked.literals
  tables := tables
  rests := fun plain =>
    let rests := rests plain
    ⟨rests.scopes, rests.symbols, rests.globals, rests.function, rests.literals⟩

/-- What ends a level at a place. -/
def StopsAt (w : Window) (level place : Nat) : Prop :=
  ∀ state : State, state.tokens = w.other -> state.pos = place -> state.Stops level

/-- A closing parenthesis ends every level. -/
theorem stopsAt_of_close {level place : Nat}
    (here : (w.other.get place).isSymbol ")" = true) :
    w.StopsAt level place :=
  fun _ tokens pos => .of_close (State.sees_at here tokens pos)

/-- A plus sign ends products. -/
theorem stopsAt_of_plus {place : Nat} (here : (w.other.get place).isSymbol "+" = true) :
    w.StopsAt 7 place := by
  intro state tokens pos
  have sees := State.sees_at here tokens pos
  exact
    { operators := fun op tight => State.sees_eq_false sees (by
        cases op <;> first | decide | (revert tight; decide))
      assignment := fun loose => absurd loose (by decide)
      comma := fun loose => absurd loose (by decide)
      trailers := fun symbol member => State.sees_eq_false sees (by
        rintro rfl
        revert member
        decide) }

/-- A parser gives up, or what it does is to build a node when its cursor stands at a
place. -/
def Reads (w : Window) (parser : Parser NodeId) (there : State) (build : Parser NodeId)
    (after : State) (place : Nat) : Prop :=
  outcome (parser there) = .error (.fault .endless) ∨
    ∃ reached, w.Holds after place reached ∧ outcome (parser there) = outcome
      (build reached)

namespace Reads

variable {parser build : Parser NodeId} {place target level more : Nat}

/-- A run that is followed. -/
theorem of_arrives {value : NodeId}
    (arrives : w.Arrives value after (parser there))
    (here : after.pos + w.base - w.low = place) :
    w.Reads parser there (pure (carry w.names value)) after place := by
  rcases arrives with ⟨last, gaveUp⟩ | ⟨reached, run, linked⟩
  · exact .inl (by rw [gaveUp]; rfl)
  · have at_ : reached.pos = place := by
      have := linked.pos
      omega
    exact .inr ⟨reached, at_ ▸ linked.holds, by rw [run]; rfl⟩

/-- A parser that runs as another one. -/
theorem congr {other : Parser NodeId} {beside : State}
    (same : outcome (parser there) = outcome (other beside))
    (reads : w.Reads other beside build after place) :
    w.Reads parser there build after place := by
  unfold Reads
  rw [same]
  exact reads

/-- The states that have been reached go together with others. -/
theorem mono {other : State} (reads : w.Reads parser there build after place)
    (holds : ∀ reached, w.Holds after place reached -> z.Holds other place reached) :
    z.Reads parser there build other place :=
  reads.imp_right fun ⟨reached, held, same⟩ => ⟨reached, holds reached held, same⟩

/-- What goes on behind the node with the cursor elsewhere. -/
theorem bind (reads : w.Reads parser there build after place)
    (sightless : Sightless build) {rest goes : NodeId -> Parser NodeId}
    (alike : ∀ node state, state.tokens = w.other -> state.pos = place ->
      outcome (rest node state) = outcome (goes node (state.at_ target))) :
    w.Reads (parser >>= rest) there (build >>= goes) after target := by
  rcases reads with gaveUp | ⟨reached, holds, same⟩
  · exact .inl (outcome_bind_endless rest gaveUp)
  · refine .inr ⟨_, holds.move target, ?_⟩
    refine (outcome_bind_congr same fun _ _ _ => rfl).trans (sightless.outcome_bind ?_)
    exact fun node state tokens pos =>
      alike node state (tokens.trans holds.tokens) (pos.trans holds.pos)

/-- What goes on behind the node and leaves it as it is. -/
theorem onward (reads : w.Reads parser there build after place)
    (sightless : Sightless build) {rest : NodeId -> Parser NodeId}
    (gives : ∀ node state, state.tokens = w.other -> state.pos = place ->
      rest node state = .ok node (state.at_ target)) :
    w.Reads (parser >>= rest) there build after target := by
  have alike node state (tokens : state.tokens = w.other) (pos : state.pos = place) :
      outcome (rest node state) =
        outcome ((pure node : Parser NodeId) (state.at_ target)) := by
    rw [gives node state tokens pos]
    rfl
  have reads := reads.bind sightless alike
  rwa [bind_pure] at reads

/-- A level reads what a tighter one reads, if it ends there. -/
theorem loosen {tight : Nat} {again : Productions}
    (reads : w.Reads (parserAt again tight) there build after place)
    (sightless : Sightless build)
    (stops : w.StopsAt level place) (le : level ≤ tight) (high : tight ≤ 8) :
    w.Reads (parserAt again level) there build after place := by
  obtain ⟨tail, split, gives⟩ := parserAt_split_to again le high
  rw [split]
  refine reads.onward sightless fun node state tokens pos => ?_
  rw [gives node state (stops state tokens pos), ← pos]
  rfl

/-- The cast expressions that are called again, if they are called at all. -/
theorem again_cast
    (reads : ∀ less, w.Reads (cast (productions less)) there build after place) :
    w.Reads (productions more).cast there build after place := by
  cases more with
  | zero => exact .inl rfl
  | succ less => exact reads less

/-- The expressions that are called again, if they are called at all.  A parenthesis ends
them. -/
theorem again_expr {tight : Nat}
    (reads : ∀ less, w.Reads (parserAt (productions less) tight) there build after place)
    (sightless : Sightless build) (closes : (w.other.get place).isSymbol ")" = true)
    (high : tight ≤ 8) :
    w.Reads (productions more).expr there build after place := by
  cases more with
  | zero => exact .inl rfl
  | succ less =>
      have stops : w.StopsAt 0 place := stopsAt_of_close closes
      exact (reads less).loosen sightless stops (Nat.zero_le _) high

/-- An expression in parentheses, up to what may follow it. -/
theorem trailed (reads : w.Reads (productions more).expr there.next build after place)
    (sightless : Sightless build) (opens : there.sees "(" = true)
    (closed : there.next.sees openBrace = false)
    (closes : (w.other.get place).isSymbol ")" = true) :
    w.Reads (trailer (productions more)) there
      (build >>= fun node => iterate node (trailerRound (productions more))) after
        (place + 1) := by
  refine .congr (congrArg outcome (trailer_of_parenthesis opens closed)) <|
    reads.bind sightless fun node state tokens pos => ?_
  have sees : state.sees ")" = true := State.sees_at closes tokens pos
  rw [bind_run (expect_run sees)]
  change _ = outcome (iterate node _ (state.at_ (place + 1)))
  rw [← pos]
  rfl

/-- An expression in parentheses that nothing follows. -/
theorem parenthesised
    (reads : w.Reads (productions more).expr there.next build after place)
    (sightless : Sightless build) (opens : there.sees "(" = true)
    (begins : there.next.BeginsExpr)
    (closes : (w.other.get place).isSymbol ")" = true)
    (stops : w.StopsAt level (place + 1))
    (high : level ≤ 8) :
    w.Reads (parserAt (productions more) level) there build after (place + 1) := by
  have tight : w.Reads (parserAt (productions more) 8) there build after (place + 1) := by
    refine .congr (congrArg outcome (cast_of_parenthesis opens begins.untyped)) <|
      .congr (congrArg outcome (trailer_of_parenthesis opens begins.closed)) <|
        reads.onward sightless fun node state tokens pos => ?_
    have sees : state.sees ")" = true := State.sees_at closes tokens pos
    have ends : state.next.Stops 8 :=
      (stops state.next tokens (congrArg (· + 1) pos)).mono high
    rw [bind_run (expect_run sees), iterate_done (trailerRound_stops ends), ← pos]
    rfl
  exact tight.loosen sightless stops high (Nat.le_refl 8)

/-- An operand behind a star. -/
theorem starred (reads : w.Reads (productions more).cast there.next build after place)
    (sightless : Sightless build) (star : there.sees "*" = true) :
    w.Reads (parserAt (productions more) 8) there
      (build >>= fun node => newNode (.deref node) there.pos) after place :=
  .congr (congrArg outcome (cast_of_star star)) <|
    reads.bind sightless fun node state tokens pos => by
      rw [← pos]
      rfl

/-- Two operands with a plus sign between them. -/
theorem summed {lhs rhs : NodeId} {again : Productions}
    (first : w.Reads (parserAt again 7) there (pure lhs) after place)
    (plus : (w.other.get place).isSymbol "+" = true)
    (second : ∀ reached, w.Holds after place reached ->
      z.Reads (parserAt again 7) reached.next (pure rhs) last target)
    (stops : z.StopsAt 6 target) :
    z.Reads (parserAt again 6) there (newAdd lhs rhs place) last target := by
  rw [parserAt_eq_leftChain again (by decide) (by decide)]
  rcases first with gaveUp | ⟨reached, holds, same⟩
  · exact .inl (outcome_bind_endless _ gaveUp)
  have here : reached.sees "+" = true := State.sees_at plus holds.tokens holds.pos
  have round (node : NodeId) : chainRound (joinsAt 6)
      (parserAt again 7) node reached = (do
      let rhs ← parserAt again 7
      return .again (← newAdd node rhs place) : Parser (Round NodeId NodeId))
        reached.next := by
    rw [← holds.pos]
    exact chainRound_run (show .add ∈ operatorsAt 6 by decide) here
  have loop : outcome ((parserAt again 7 >>= fun node =>
        iterate node (chainRound (joinsAt 6) (parserAt again 7))) there) =
      outcome ((parserAt again 7 >>= fun rhs => newAdd lhs rhs place >>= fun node =>
        iterateFor (chainRound (joinsAt 6) (parserAt again 7))
          (reached.tokens.last + 1) node) reached.next) := by
    rw [outcome_bind, same]
    change outcome (iterate lhs _ reached) = _
    rw [iterate_run, iterateFor, bind_from (round lhs)]
    simp only [bind_assoc, pure_bind]
  refine .congr loop ?_
  have sum (node : NodeId) (state : State) (tokens : state.tokens = z.other)
      (pos : state.pos = target) :
      outcome ((newAdd lhs node place >>= fun sum =>
          iterateFor (chainRound (joinsAt 6) (parserAt again 7))
            (reached.tokens.last + 1) sum) state) =
        outcome ((newAdd lhs node place >>= pure) (state.at_ target)) :=
    (Sightless.newAdd lhs node place).outcome_bind fun value after same unmoved => by
      have ends := stops after (same.trans tokens) (unmoved.trans pos)
      rw [iterateFor_done (chainRound_stops ends), ← pos, ← unmoved]
      rfl
  have added := (second reached holds).bind (.pure rhs) sum
  simp only [pure_bind, bind_pure] at added
  exact added

/-- A member of an expression in parentheses. -/
theorem accessed (reads : w.Reads (productions more).expr there.next build after place)
    (sightless : Sightless build) (opens : there.sees "(" = true)
    (closed : there.next.sees openBrace = false)
    (closes : (w.other.get place).isSymbol ")" = true)
    (dot : (w.other.get (place + 1)).isSymbol "." = true)
    (identifier : (w.other.get (place + 2)).isIdentifier = true)
    (stops : w.StopsAt 8 (place + 3)) :
    w.Reads (trailer (productions more)) there
      (build >>= fun node => memberNamed node ((w.other.get (place + 2)).text, place + 2))
        after (place + 3) := by
  refine .congr (congrArg outcome (trailer_of_parenthesis opens closed)) <|
    reads.bind sightless fun node state tokens pos => ?_
  have closed : state.sees ")" = true := State.sees_at closes tokens pos
  have dotted : state.next.sees "." = true :=
    State.sees_at dot tokens (congrArg (· + 1) pos)
  have named : state.next.next.current = w.other.get (place + 2) := by
    change state.tokens.get (state.pos + 2) = _
    rw [tokens, pos]
  have here : state.next.next.current.isIdentifier = true := named ▸ identifier
  rw [bind_run (expect_run closed), iterate_run, iterateFor,
    bind_from (trailerRound_of_dot dotted)]
  simp only [bind_assoc, pure_bind]
  rw [outcome_bind, outcome_memberAccess node here, ← outcome_bind]
  have pos_ : state.next.next.pos = place + 2 := congrArg (· + 2) pos
  refine (@Sightless.outcome_bind _ _ _ _ _ pure (place + 3) (Sightless.memberNamed _ _)
    fun value after same unmoved => ?_).trans ?_
  · have behind : after.pos = place + 3 := unmoved.trans (congrArg (· + 1) pos_)
    rw [iterateFor_done (trailerRound_stops (stops after (same.trans tokens) behind)),
      ← behind]
    rfl
  · rw [bind_pure, named, pos_]
    rfl

end Reads

omit [Carried α] in
/-- At the other place an expression begins where one begins. -/
theorem Linked.beginsExpr (linked : w.Linked state there) (shown : w.Shown state.pos)
    (begins : state.BeginsExpr) : there.BeginsExpr where
  untyped := (@Shown.startsType _ _ _ 0 linked shown).trans begins.untyped
  closed := (shown.sees linked openBrace).trans begins.closed

/-- An operand in parentheses. -/
theorem Linked.operand (linked : w.Linked state there.next) (closes : w.Stops)
    {node : NodeId} {tight level more : Nat} (opens : there.sees "(" = true)
    (begins : state.BeginsExpr) (before : state.pos < w.high) (high : tight ≤ 8)
    (arrives : ∀ less, w.Arrives node after
      (parserAt (productions less) tight there.next))
    (here : after.pos = w.high) (le : level ≤ 8)
    (stops : w.StopsAt level (w.base + (w.high - w.low) + 1)) :
    w.Reads (parserAt (productions more) level) there (pure (carry w.names node)) after
      (w.base + (w.high - w.low) + 1) := by
  have reached := linked.reached
  exact .parenthesised (.again_expr (fun less => .of_arrives (arrives less) (by omega))
    (.pure _) closes high) (.pure _) opens (linked.beginsExpr (.inr before) begins)
      closes stops le

end Window

end Grammar
end MiniC
