import MiniC.Proofs.Grammar.Crossing.Expressions
import MiniC.Proofs.Grammar.Expansion.Layers

/-!
# Operands at another place

The left operand of a subscript, of a member access or of a sum is what has been read so
far: a first part and the rounds of a loop behind it.  At the other place it stands in
parentheses.  There the loop ends, and the whole is an expression.
-/

namespace MiniC
namespace Grammar

variable {α β σ : Type} {w : Window} {state there middle after : State}

/-! ## Rounds -/

/-- A loop goes on where its rounds have come to, or has come to its bound. -/
theorem Rounds.iterateFor {round : σ -> Parser (Round σ α)} {start current : σ}
    (rounds : Rounds round start state current middle) (bound : Nat) :
    (∃ last, Grammar.iterateFor round bound start state = .error (.fault .endless) last) ∨
      ∃ fewer, Grammar.iterateFor round bound start state =
        Grammar.iterateFor round fewer current middle := by
  induction rounds generalizing bound with
  | none => exact .inr ⟨bound, rfl⟩
  | more goes others hypothesis =>
      cases bound with
      | zero => exact .inl ⟨_, rfl⟩
      | succ bound =>
          rw [iterateFor_again goes]
          exact hypothesis bound

namespace Window

variable [Carried α] [Carried β]

/-- A run that gives up is followed by any. -/
theorem Ends.exhausted {last : State} {other : EStateM.Result Error State α} :
    w.Ends (.error (.fault .endless) last) other := by
  refine ⟨fun _ _ never => (by cases never), fun _ => ?_⟩
  rintro _ _ ⟨⟩ differs
  exact absurd rfl differs

/-- A run that has come to the bound of a loop is followed by any. -/
theorem Ends.of_rounds {round : σ -> Parser (Round σ α)} {start current : σ} {bound : Nat}
    {other : EStateM.Result Error State α}
    (rounds : Rounds round start state current middle)
    (ends : ∀ fewer, w.Ends (Grammar.iterateFor round fewer current middle) other) :
    w.Ends (Grammar.iterateFor round bound start state) other := by
  rcases rounds.iterateFor bound with ⟨last, gaveUp⟩ | ⟨fewer, same⟩
  · rw [gaveUp]
    exact .exhausted
  · rw [same]
    exact ends fewer

/-- One parser behind another at the other place. -/
theorem Arrives.bind {parser : Parser α} {rest : α -> Parser β} {value : α} {result : β}
    (first : w.Arrives value middle (parser there))
    (second : ∀ reached, w.Linked middle reached ->
      w.Arrives result after (rest (carry w.names value) reached)) :
    w.Arrives result after ((parser >>= rest) there) := by
  rcases first with ⟨last, gaveUp⟩ | ⟨reached, run, linked⟩
  · exact .inl ⟨last, bind_fail gaveUp⟩
  · rw [bind_run run]
    exact second reached linked

section

variable [Carried σ] {calm : Prop} {mode : Mode α}
    {round besideRound : σ -> Parser (Round σ α)} {start current : σ}
  (each : ∀ current, Twins w calm w.low (mode.round fun _ => True) (round current)
    (besideRound (carry w.names current)))

include each

/-- What rounds add. -/
theorem added_of_rounds (rounds : Rounds round start state current middle)
    (within : state.Within w.tokens) (reached : w.low ≤ state.pos) :
    Added w.tokens state middle := by
  induction rounds with
  | none => exact .refl within
  | @more _ _ _ state _ _ goes others hypothesis =>
      have added := (each _ (Nat.le_refl _) state state within reached).own.added _ _ goes
      exact added.trans (hypothesis added.within (Nat.le_trans reached added.forward))

/-- A loop arrives where the rounds of the other loop have come to, if it ends there. -/
theorem Arrives.rounds {result : α} (rounds : Rounds round start state current middle)
    (linked : w.Linked state there) (here : middle.pos = w.high) (calm_ : calm)
    (fewTypes : middle.program.types.entries.size ≤ w.tyHigh)
    (fewNodes : middle.program.nodes.size ≤ w.nodeHigh)
    (ends : ∀ reached, w.Linked middle reached ->
      besideRound (carry w.names current) reached =
        .ok (.done (carry w.names result)) reached) :
    w.Arrives result middle (iterate (carry w.names start) besideRound there) := by
  rw [iterate_run]
  generalize there.tokens.last + 2 = bound
  induction rounds generalizing there bound with
  | none =>
      cases bound with
      | zero => exact .inl ⟨_, rfl⟩
      | succ bound =>
          exact .inr ⟨there, iterateFor_done (ends there linked) bound, linked⟩
  | @more current next last state between middle goes others hypothesis =>
      cases bound with
      | zero => exact .inl ⟨_, rfl⟩
      | succ bound =>
          have twins :=
            each current (Nat.le_refl _) state there linked.within linked.reached
          have added := twins.own.added _ _ goes
          have beyond := added_of_rounds each others added.within
            (Nat.le_trans linked.reached added.forward)
          have followed :
              w.Near calm (mode.round fun _ => True) (.again next) between := by
            refine .inr ⟨?_, Nat.le_trans beyond.begins.types.size_le fewTypes,
              Nat.le_trans beyond.begins.nodes.size_le fewNodes⟩
            exact (Nat.lt_or_eq_of_le (here ▸ beyond.forward)).imp_right
              fun same => ⟨same, .inr calm_⟩
          rcases twins.agrees linked _ _ goes followed with
            ⟨last, gaveUp⟩ | ⟨reached, run, behind⟩
          · exact .inl ⟨last, bind_fail gaveUp⟩
          · rw [show Grammar.iterateFor besideRound (bound + 1)
              (carry w.names current) there = _ from iterateFor_again run bound]
            exact hypothesis behind here fewTypes fewNodes ends bound

end

end Window

/-! ## What begins a primary expression -/

/-- Where a symbol stands that is no word of a type, no type begins. -/
theorem untyped_of_sees {symbol : String} (here : state.sees symbol = true)
    (other : symbol ∉ State.typeKeywords) :
    state.startsType state.pos = false := by
  have none_ : State.typeKeywords.any (state.seesAt state.pos) = false := by
    rw [List.any_eq_false]
    intro keyword member sees
    exact Bool.false_ne_true <|
      (State.sees_eq_false here fun same => other (same ▸ member)).symm.trans sees
  unfold State.startsType
  rw [none_, typedefAt?_of_nameless (Token.isIdentifier_eq_false here)]
  rfl

/-- A primary expression begins neither with a cast nor with an operator. -/
theorem bare_of_primary {depth : Nat} {node : NodeId}
    (run : primary (productions depth) state = .ok node after) :
    (state.sees "(" && state.startsType (state.pos + 1)) = false ∧
      ∀ symbol ∈ unaryOperators, state.sees symbol = false := by
  have other {symbol : String} (here : state.sees symbol = true)
      (different : symbol ∉ unaryOperators) :
      ∀ operator ∈ unaryOperators, state.sees operator = false :=
    fun operator known => State.sees_eq_false here fun same => different (same ▸ known)
  by_cases opens : state.sees "(" = true
  · refine ⟨?_, other opens (by decide)⟩
    rw [opens, Bool.true_and]
    cases brace : state.seesAt (state.pos + 1) openBrace with
    | true => exact @untyped_of_sees state.next openBrace brace (by decide)
    | false =>
        rw [primary_of_parenthesis opens brace] at run
        obtain ⟨inner, middle, head, -⟩ := bind_ok run
        cases depth with
        | zero => cases head
        | succ depth =>
            exact (beginsExpr_of_parserAt (Nat.zero_le 8) head).untyped
  have closed : state.sees "(" = false := by simpa using opens
  refine ⟨by rw [closed, Bool.false_and], ?_⟩
  by_cases word : state.sees "sizeof" = true
  · exact other word (by decide)
  intro operator known
  unfold primary at run
  rw [get_run, if_neg (by simp [closed]), accept_else closed,
    accept_else (by simpa using word)] at run
  unfold atom at run
  rw [get_run] at run
  cases kind : state.current.kind with
  | identifier =>
      exact State.isIdentifier_not_sees
        (by unfold Token.isIdentifier; rw [kind]; rfl) operator
  | str data | num number =>
      change state.current.isSymbol operator = false
      unfold Token.isSymbol
      rw [kind]
  | _ =>
      rw [kind] at run
      cases run

/-! ## Operands -/

/-- At the parenthesis that closes the stretch every level ends. -/
theorem Window.Linked.stops_at_end (linked : w.Linked state there) (stops : w.Stops)
    (here : state.pos = w.high) {level : Nat} : there.Stops level := by
  suffices here : there.sees ")" = true from .of_close here
  have := linked.pos
  have := linked.reached
  unfold State.sees State.seesAt State.token
  rw [linked.tokens, show there.pos = w.base + (w.high - w.low) by omega]
  exact stops

section

variable {depth more : Nat} {calm : Prop} [closes : w.Closes calm]

/-- A postfix expression in parentheses is a whole cast expression. -/
theorem Window.Linked.postfix (linked : w.Linked state there) (calm_ : calm)
    {first current : NodeId} (head : primary (productions depth) state = .ok first middle)
    (rounds : Rounds (trailerRound (productions depth)) first middle current after)
    (here : after.pos = w.high) (fewTypes : after.program.types.entries.size ≤ w.tyHigh)
    (fewNodes : after.program.nodes.size ≤ w.nodeHigh) :
    w.Arrives current after (cast (productions more) there) := by
  have each current : Twins w calm w.low (Mode.passing.pushed.round fun _ => True)
      (trailerRound (productions depth) current)
      (trailerRound (productions more) (carry w.names current)) :=
    .trailerRound (productions_twin depth more) current
  have twins := Twins.primary (@productions_twin w calm _ depth more)
    (Nat.le_refl _) state there linked.within linked.reached
  have added := twins.own.added _ _ head
  have passed := twins.own.passes _ _ head trivial
  have beyond := added_of_rounds each rounds added.within
    (Nat.le_trans linked.reached added.forward)
  have forward := beyond.forward
  have shown : w.Shown state.pos := .inr (by omega)
  obtain ⟨untyped, bare⟩ := bare_of_primary head
  have alsoUntyped : (there.sees "(" && there.startsType (there.pos + 1)) = false := by
    rw [shown.sees linked]
    cases opens : state.sees "(" with
    | false => rfl
    | true =>
        rw [opens, Bool.true_and] at untyped
        have faces : w.Faces calm (state.pos + 1) :=
          (Nat.lt_or_eq_of_le (show state.pos + 1 ≤ w.high by omega)).imp .inr
            fun same => ⟨calm_, same⟩
        rw [Bool.true_and]
        exact faces.startsType linked untyped
  have alsoBare : ∀ symbol ∈ unaryOperators, there.sees symbol = false :=
    fun symbol known => (shown.sees linked symbol).trans (bare symbol known)
  rw [cast_of_untyped alsoUntyped, unary_of_trailer alsoBare]
  refine .bind (twins.agrees linked _ _ head ?_) fun reached behind =>
    .rounds each rounds behind here calm_ fewTypes fewNodes fun stopped linked => ?_
  · refine .inr ⟨?_, Nat.le_trans beyond.begins.types.size_le fewTypes,
      Nat.le_trans beyond.begins.nodes.size_le fewNodes⟩
    exact (Nat.lt_or_eq_of_le (here ▸ forward)).imp_right fun same => ⟨same, .inr calm_⟩
  · exact @trailerRound_stops _ _ 8 _ (linked.stops_at_end (closes.stops calm_) here)

/-- So is a sum that goes on. -/
theorem Window.Linked.partialSum (linked : w.Linked state there) (calm_ : calm)
    {first current : NodeId}
    (head : parserAt (productions depth) 7 state = .ok first middle)
    (rounds : Rounds (chainRound (joinsAt 6) (parserAt (productions depth) 7)) first
      middle current after)
    (here : after.pos = w.high) (fewTypes : after.program.types.entries.size ≤ w.tyHigh)
    (fewNodes : after.program.nodes.size ≤ w.nodeHigh) :
    w.Arrives current after (parserAt (productions more) 6 there) := by
  have twin := @productions_twin w calm _ depth more
  have each current : Twins w calm w.low (Mode.passing.pushed.round fun _ => True)
      (chainRound (joinsAt 6) (parserAt (productions depth) 7) current)
      (chainRound (joinsAt 6) (parserAt (productions more) 7) (carry w.names current)) :=
    .joinRound (fun _ => .parserAt twin (by decide)) current
  have twins := Twins.parserAt twin (show 2 ≤ 7 by decide)
    (Nat.le_refl _) state there linked.within linked.reached
  have added := twins.own.added _ _ head
  have beyond := added_of_rounds each rounds added.within
    (Nat.le_trans linked.reached added.forward)
  rw [parserAt_eq_leftChain _ (by decide) (by decide)]
  refine .bind (twins.agrees linked _ _ head ?_) fun reached behind =>
    .rounds each rounds behind here calm_ fewTypes fewNodes fun stopped linked =>
      chainRound_stops (linked.stops_at_end (closes.stops calm_) here)
  refine .inr ⟨?_, Nat.le_trans beyond.begins.types.size_le fewTypes,
    Nat.le_trans beyond.begins.nodes.size_le fewNodes⟩
  exact (Nat.lt_or_eq_of_le (here ▸ beyond.forward)).imp_right
    fun same => ⟨same, .inr calm_⟩

end

end Grammar
end MiniC
