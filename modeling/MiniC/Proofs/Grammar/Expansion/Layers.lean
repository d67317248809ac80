import MiniC.Proofs.Grammar.Crossing.Expressions
import MiniC.Proofs.Grammar.Expansion.Sightless

/-!
# Expressions in parentheses

A level of the grammar reads an operand of the next level and goes on behind it, unless it
finds nothing there that it goes on with.  So all levels read an expression in parentheses
as the tightest one does, and where an expression ends no level goes on.  An expression
begins neither with a type nor with a brace.
-/

namespace MiniC
namespace Grammar

variable {again : Productions} {state middle after : State} {level : Nat}
    {node value : NodeId}

/-! ## Where a level ends -/

/-- Nothing stands at the cursor that a level goes on with. -/
structure State.Stops (level : Nat) (state : State) : Prop where
  operators : ∀ op : BinaryOp, level ≤ op.level -> state.sees op.text = false
  assignment : level ≤ 1 -> state.sees "=" = false
  comma : level = 0 -> state.sees "," = false
  trailers : ∀ symbol ∈ ["[", ".", "->"], state.sees symbol = false

theorem State.Stops.mono {tight : Nat} (stops : state.Stops level) (le : level ≤ tight) :
    state.Stops tight where
  operators := fun op above => stops.operators op (Nat.le_trans le above)
  assignment := fun loose => stops.assignment (Nat.le_trans le loose)
  comma := fun loose => stops.comma (by omega)
  trailers := stops.trailers

/-- A closing parenthesis ends every level. -/
theorem State.Stops.of_close (here : state.sees ")" = true) : state.Stops level where
  operators := fun op _ => State.sees_eq_false here (by cases op <;> decide)
  assignment := fun _ => State.sees_eq_false here (by decide)
  comma := fun _ => State.sees_eq_false here (by decide)
  trailers := fun also member => State.sees_eq_false here fun same =>
    absurd (same ▸ member) (by decide)

theorem find_operator_none (stops : state.Stops level) :
    ((joinsAt level).find? fun operator => state.sees operator.1) = none := by
  rw [List.find?_eq_none]
  intro operator member
  obtain ⟨op, known, rfl⟩ := List.mem_map.mp member
  simp [stops.operators op (Nat.le_of_eq (level_of_mem_operatorsAt known).symm)]

theorem chainRound_stops {operand : Parser NodeId} (stops : state.Stops level) :
    chainRound (joinsAt level) operand node state = .ok (.done node) state := by
  unfold chainRound
  rw [get_run, find_operator_none stops]
  rfl

theorem trailerRound_stops (stops : state.Stops level) :
    trailerRound again node state = .ok (.done node) state := by
  unfold trailerRound
  rw [position_run, accept_else (stops.trailers _ (by decide)),
    accept_else (stops.trailers _ (by decide)), accept_else
      (stops.trailers _ (by decide))]
  rfl

/-! ## Subscripts and members -/

theorem trailerRound_of_bracket (here : state.sees "[" = true) :
    trailerRound again node state = (do
      let index ← again.expr
      expect "]"
      let sum ← newAdd node index state.pos
      return .again (← newNode (.deref sum) state.pos) : Parser (Round NodeId NodeId))
        state.next := by
  unfold trailerRound
  rw [position_run, accept_then here]

theorem trailerRound_of_dot (here : state.sees "." = true) :
    trailerRound again node state =
      (do return .again (← memberAccess node) : Parser (Round NodeId NodeId))
        state.next := by
  unfold trailerRound
  rw [position_run, accept_else (State.sees_eq_false here (by decide)), accept_then here]

theorem trailerRound_of_arrow (here : state.sees "->" = true) :
    trailerRound again node state = (do
      return .again (← memberAccess (← newNode (.deref node) state.pos)) :
        Parser (Round NodeId NodeId)) state.next := by
  unfold trailerRound
  rw [position_run, accept_else (State.sees_eq_false here (by decide)),
    accept_else (State.sees_eq_false here (by decide)), accept_then here]

/-- What a level makes of its first operand: it gives the operand where the level ends. -/
theorem parserAt_split (again : Productions) (high : level ≤ 7) :
    ∃ tail : NodeId -> Parser NodeId,
      parserAt again level = parserAt again (level + 1) >>= tail ∧
      ∀ node state, state.Stops level -> tail node state = .ok node state := by
  obtain rfl | rfl | low : level = 0 ∨ level = 1 ∨ 2 ≤ level := by omega
  · refine ⟨_, rfl, fun node state stops => ?_⟩
    rw [position_run, accept_else (stops.comma rfl)]
    rfl
  · refine ⟨_, rfl, fun node state stops => ?_⟩
    rw [position_run, accept_else (stops.assignment (Nat.le_refl 1))]
    rfl
  · exact ⟨_, parserAt_eq_leftChain again low high,
      fun _ _ stops => iterate_done (chainRound_stops stops)⟩

/-- What a level makes of an operand of a tighter one. -/
theorem parserAt_split_to (again : Productions) {tight : Nat} (le : level ≤ tight)
    (high : tight ≤ 8) :
    ∃ tail : NodeId -> Parser NodeId,
      parserAt again level = parserAt again tight >>= tail ∧
      ∀ node state, state.Stops level -> tail node state = .ok node state := by
  induction le with
  | refl => exact ⟨Pure.pure, (bind_pure _).symm, fun _ _ _ => rfl⟩
  | step le hypothesis =>
      obtain ⟨outer, split, gives⟩ := hypothesis (Nat.le_of_succ_le high)
      obtain ⟨inner, same, alsoGives⟩ :=
        parserAt_split again (Nat.le_of_succ_le_succ high)
      refine ⟨fun node => inner node >>= outer, ?_, fun node state stops => ?_⟩
      · rw [split, same, bind_assoc]
      · exact (bind_run (alsoGives node state (stops.mono le))).trans
          (gives node state stops)

/-! ## Parentheses -/

/-- A parenthesis that is followed by an expression. -/
theorem trailer_of_parenthesis (opens : state.sees "(" = true)
    (other : state.next.sees openBrace = false) :
    trailer again state = (do
      let inner ← again.expr
      expect ")"
      iterate inner (trailerRound again) : Parser NodeId) state.next := by
  change (primary again >>= _) state = _
  rw [bind_from (primary_of_parenthesis opens other)]
  simp only [bind_assoc, pure_bind]
  rfl

theorem unary_of_trailer (other : ∀ symbol ∈ unaryOperators, state.sees symbol = false) :
    unary again state = trailer again state := by
  unfold unary
  rw [position_run, accept_else (other _ (by decide)), accept_else (other _ (by decide)),
    accept_else (other _ (by decide)), accept_else (other _ (by decide)),
    accept_else (other _ (by decide)), accept_else (other _ (by decide))]

theorem cast_of_parenthesis (opens : state.sees "(" = true)
    (untyped : state.next.startsType state.next.pos = false) :
    cast again state = trailer again state := by
  rw [cast_of_untyped (by
    rw [show state.startsType (state.pos + 1) = false from untyped, Bool.and_false])]
  refine unary_of_trailer fun symbol known => State.sees_eq_false opens ?_
  rintro rfl
  revert known
  decide

theorem cast_of_star (star : state.sees "*" = true) :
    cast again state = (do newNode (.deref (← again.cast)) state.pos : Parser NodeId)
      state.next := by
  have other {symbol : String} (differs : "*" ≠ symbol) : state.sees symbol = false :=
    State.sees_eq_false star differs
  rw [cast_of_untyped (by rw [other (by decide), Bool.false_and])]
  unfold unary
  rw [position_run, accept_else (other (by decide)), accept_else (other (by decide)),
    accept_else (other (by decide)), accept_then star]

/-! ## What begins an expression -/

/-- At the cursor an expression may begin. -/
structure State.BeginsExpr (state : State) : Prop where
  untyped : state.startsType state.pos = false
  closed : state.sees openBrace = false

theorem State.BeginsExpr.of_absent
    (absent : ∀ symbol ∈ openBrace :: State.typeKeywords, state.sees symbol = false)
    (unnamed : state.typedefAt? state.pos = none) : state.BeginsExpr where
  untyped := by
    have none_ : State.typeKeywords.any (state.seesAt state.pos) = false := by
      rw [List.any_eq_false]
      intro keyword member sees
      have other : state.sees keyword = false :=
        absent keyword (List.mem_cons_of_mem _ member)
      exact Bool.false_ne_true (other.symm.trans sees)
    unfold State.startsType
    rw [none_, unnamed]
    rfl
  closed := absent _ List.mem_cons_self

/-- Only an identifier may name a type. -/
theorem typedefAt?_of_nameless (nameless : state.current.isIdentifier = false) :
    state.typedefAt? state.pos = none :=
  if_neg (by
    rw [show (state.token state.pos).isIdentifier = false from nameless]
    decide)

theorem State.BeginsExpr.of_sees {symbol : String} (here : state.sees symbol = true)
    (other : symbol ∉ openBrace :: State.typeKeywords) : state.BeginsExpr :=
  .of_absent (fun _ member => State.sees_eq_false here fun same => other (same ▸ member))
    (typedefAt?_of_nameless (Token.isIdentifier_eq_false here))

/-- An identifier that begins an expression names no type. -/
theorem beginsExpr_of_identifier (identifier : state.current.isIdentifier = true)
    (run : (if state.seesAt (state.pos + 1) "(" then call again else variableReference)
      state = .ok value after) : state.BeginsExpr := by
  refine .of_absent (fun symbol _ => State.isIdentifier_not_sees identifier symbol) ?_
  have unnamed (other : ∀ ty,
      state.scopes.lookupVariable? state.current.text ≠ some (.typedef ty)) :
      state.typedefAt? state.pos = none := by
    refine (if_pos identifier).trans ?_
    change state.scopes.typedef? state.current.text = none
    unfold Scopes.typedef?
    cases known : state.scopes.lookupVariable? state.current.text with
    | none => rfl
    | some binding =>
        cases binding with
        | typedef ty => exact absurd known (other ty)
        | _ => rfl
  refine unnamed fun ty known => ?_
  split at run
  · rw [call_run again identifier] at run
    obtain ⟨_, behind, opening, rest⟩ := bind_ok run
    have opens := sees_of_expect opening
    cases (expect_run opens).symm.trans opening
    obtain ⟨function, named, names, -⟩ := bind_ok rest
    obtain ⟨_, _, reads, rest⟩ := bind_ok names
    cases reads
    have bound : state.next.next.scopes.lookupVariable? state.current.text = _ := known
    rw [bound] at rest
    cases rest
  · obtain ⟨_, _, names, rest⟩ := bind_ok run
    cases (identifier_run identifier).symm.trans names
    obtain ⟨_, _, reads, rest⟩ := bind_ok rest
    cases reads
    have bound : state.next.scopes.lookupVariable? state.current.text = _ := known
    rw [bound] at rest
    cases rest

/-- A primary expression begins as an expression may. -/
theorem beginsExpr_of_primary (run : primary again state = .ok value after) :
    state.BeginsExpr := by
  by_cases opens : state.sees "(" = true
  · exact .of_sees opens (by decide)
  by_cases word : state.sees "sizeof" = true
  · exact .of_sees word (by decide)
  have closed : state.sees "(" = false := by simpa using opens
  unfold primary at run
  rw [get_run, if_neg (by simp [closed]), accept_else closed,
    accept_else (by simpa using word)] at run
  unfold atom at run
  rw [get_run] at run
  have constant (nameless : state.current.isIdentifier = false)
      (other : ∀ symbol, state.current.isSymbol symbol = false) : state.BeginsExpr :=
    .of_absent (fun symbol _ => other symbol) (typedefAt?_of_nameless nameless)
  cases kind : state.current.kind with
  | identifier =>
      rw [kind] at run
      exact beginsExpr_of_identifier (by unfold Token.isIdentifier; rw [kind]; rfl) run
  | str data | num number =>
      refine constant ?_ fun symbol => ?_
      · unfold Token.isIdentifier
        rw [kind]
        rfl
      · unfold Token.isSymbol
        rw [kind]
  | _ =>
      rw [kind] at run
      cases run

/-- What a level reads begins as an expression may. -/
theorem beginsExpr_of_parserAt (high : level ≤ 8)
    (run : parserAt again level state = .ok value after) :
    state.BeginsExpr := by
  have cast_ {value : NodeId} {after : State} (run : cast again state = .ok value after) :
      state.BeginsExpr := by
    by_cases opens : state.sees "(" = true
    · exact .of_sees opens (by decide)
    have closed : state.sees "(" = false := by simpa using opens
    rw [cast_of_untyped (by rw [closed, Bool.false_and])] at run
    by_cases operator : ∃ symbol ∈ unaryOperators, state.sees symbol = true
    · obtain ⟨symbol, known, here⟩ := operator
      have other :
          ∀ symbol ∈ unaryOperators, symbol ∉ openBrace :: State.typeKeywords := by
        decide
      exact .of_sees here (other symbol known)
    · rw [unary_of_trailer (by simpa using operator)] at run
      obtain ⟨first, middle, head, -⟩ := bind_ok run
      exact beginsExpr_of_primary head
  obtain ⟨tail, split, -⟩ := parserAt_split_to again high (Nat.le_refl 8)
  rw [split] at run
  obtain ⟨first, middle, head, -⟩ := bind_ok run
  exact cast_ head

/-! ## What ends an expression -/

/-- A loop ends with a round that is done, and what all other rounds keep holds in front
of it. -/
theorem iterateFor_ends {α σ : Type} {round : σ -> Parser (Round σ α)}
    {keep : State -> Prop} (keeps : ∀ current next state after, keep state ->
      round current state = .ok (.again next) after -> keep after)
    {bound : Nat} {start : σ} {result : α} (begins : keep state)
    (run : iterateFor round bound start state = .ok result after) :
    ∃ current last, keep last ∧ round current last = .ok (.done result) after := by
  induction bound generalizing start state with
  | zero => cases run
  | succ bound hypothesis =>
      obtain ⟨value, middle, first, rest⟩ := bind_ok run
      cases value with
      | again next => exact hypothesis (keeps _ _ _ _ begins first) rest
      | done value =>
          cases rest
          exact ⟨start, state, begins, first⟩

/-- Behind the last member or subscript no further one stands. -/
theorem stops_of_trailerRound
    (done : trailerRound again node state = .ok (.done value) after) :
    after.Stops 8 := by
  have other {symbol : String} {yes no : Parser (Round NodeId NodeId)}
      (run : (do if ← accept symbol then yes else no) state = .ok (.done value) after)
      (goes : ∀ state, yes state ≠ .ok (.done value) after) :
      state.sees symbol = false ∧ no state = .ok (.done value) after := by
    by_cases sees : state.sees symbol = true
    · rw [accept_then sees] at run
      exact absurd run (goes _)
    · have absent : state.sees symbol = false := by simpa using sees
      rw [accept_else absent] at run
      exact ⟨absent, run⟩
  unfold trailerRound at done
  rw [position_run] at done
  obtain ⟨bracket, done⟩ := other done fun state run => by
    obtain ⟨_, _, _, rest⟩ := bind_ok run
    obtain ⟨_, _, _, rest⟩ := bind_ok rest
    obtain ⟨_, _, _, rest⟩ := bind_ok rest
    obtain ⟨_, _, _, rest⟩ := bind_ok rest
    cases rest
  obtain ⟨dot, done⟩ := other done fun state run => by
    obtain ⟨_, _, _, rest⟩ := bind_ok run
    cases rest
  obtain ⟨arrow, done⟩ := other done fun state run => by
    obtain ⟨_, _, _, rest⟩ := bind_ok run
    obtain ⟨_, _, _, rest⟩ := bind_ok rest
    cases rest
  cases done
  exact
    { operators := fun op above => absurd above (by cases op <;> decide)
      assignment := fun loose => absurd loose (by decide)
      comma := fun loose => absurd loose (by decide)
      trailers := fun symbol member => by
        simp only [List.mem_cons, List.not_mem_nil, or_false] at member
        rcases member with rfl | rfl | rfl
        · exact bracket
        · exact dot
        · exact arrow }

/-- A parser that does not look at the cursor leaves it at the end of an expression. -/
theorem State.Stops.sightless {α : Type} {parser : Parser α} {value : α}
    (stops : state.Stops level) (sightless : Sightless parser)
    (run : parser state = .ok value after) : after.Stops level where
  operators := fun op above => (sightless.sees run _).trans (stops.operators op above)
  assignment := fun loose => (sightless.sees run _).trans (stops.assignment loose)
  comma := fun loose => (sightless.sees run _).trans (stops.comma loose)
  trailers :=
    fun symbol member => (sightless.sees run _).trans (stops.trailers symbol member)

/-- An alternative that is taken or not. -/
theorem accept_cases {α : Type} {symbol : String} {yes no : Parser α}
    {value : α} {goal : Prop}
    (run : (do if ← accept symbol then yes else no) state = .ok value after)
    (taken : yes state.next = .ok value after -> goal)
    (other : no state = .ok value after -> goal) : goal := by
  by_cases sees : state.sees symbol = true
  · rw [accept_then sees] at run
    exact taken run
  · rw [accept_else (by simpa using sees)] at run
    exact other run

theorem stops_of_cast_of
    (inner : ∀ state value after, again.cast state = .ok value after -> after.Stops 8)
    (run : cast again state = .ok value after) : after.Stops 8 := by
  have built (kind : NodeId -> NodeKind) {tok : Nat} {state : State}
      (run : (do newNode (kind (← again.cast)) tok : Parser NodeId) state =
        .ok value after) :
      after.Stops 8 := by
    obtain ⟨operand, middle, operandRun, nodeRun⟩ := bind_ok run
    exact (inner _ _ _ operandRun).sightless (.newNode _ _) nodeRun
  unfold cast at run
  rw [get_run] at run
  split at run
  · obtain ⟨_, _, _, run⟩ := bind_ok run
    obtain ⟨ty, _, _, run⟩ := bind_ok run
    obtain ⟨_, _, _, run⟩ := bind_ok run
    obtain ⟨operand, middle, operandRun, castRun⟩ := bind_ok run
    exact (inner _ _ _ operandRun).sightless (.newCast _ _ _) castRun
  · unfold unary at run
    rw [position_run] at run
    refine accept_cases run (inner _ _ _) fun run => accept_cases run (built _) fun run =>
      accept_cases run (built .addr) fun run => accept_cases run (built .deref) fun run =>
        accept_cases run (built _) fun run => accept_cases run (built _) fun run => ?_
    obtain ⟨first, middle, -, run⟩ := bind_ok run
    obtain ⟨current, last, -, done⟩ := @iterateFor_ends _ _ _ _ _ (fun _ => True)
      (fun _ _ _ _ _ _ => trivial) _ _ _ trivial run
    exact stops_of_trailerRound done

/-- Behind a cast expression no member or subscript stands. -/
theorem stops_of_cast {depth : Nat}
    (run : cast (productions depth) state = .ok value after) :
    after.Stops 8 := by
  induction depth generalizing state value after with
  | zero => exact stops_of_cast_of (fun _ _ _ never => by cases never) run
  | succ depth hypothesis =>
      exact stops_of_cast_of (fun _ _ _ inner => hypothesis inner) run

theorem sightless_joinOf (op : BinaryOp) (lhs rhs : NodeId) (tok : Nat) :
    Sightless (joinOf op lhs rhs tok) := by
  cases op <;>
    first
    | exact .newAdd _ _ _
    | exact .newSub _ _ _
    | exact .newIntegerBinary _ _ _ _
    | exact .newBinary _ _ _ _

/-- A round that goes on has read an operator and an operand. -/
theorem chainRound_again {operand : Parser NodeId} {next : NodeId}
    (goes : chainRound (joinsAt level) operand node state = .ok (.again next) after) :
    ∃ op rhs middle, operand state.next = .ok rhs middle ∧
      joinOf op node rhs state.pos middle = .ok next after := by
  unfold chainRound at goes
  rw [get_run] at goes
  cases found : (joinsAt level).find? fun operator => state.sees operator.1 with
  | none =>
      rw [found] at goes
      cases goes
  | some operator =>
      obtain ⟨op, known, rfl⟩ := List.mem_map.mp (List.mem_of_find?_eq_some found)
      rw [found] at goes
      obtain ⟨_, _, moves, goes⟩ := bind_ok goes
      cases moves
      obtain ⟨rhs, middle, operandRun, goes⟩ := bind_ok goes
      obtain ⟨joined, _, joins, goes⟩ := bind_ok goes
      cases goes
      exact ⟨op, rhs, middle, operandRun, joins⟩

/-- A round that is done has found no operator. -/
theorem chainRound_done {operand : Parser NodeId}
    (done : chainRound (joinsAt level) operand node state = .ok (.done value) after) :
    after = state ∧ ∀ op ∈ operatorsAt level, state.sees op.text = false := by
  unfold chainRound at done
  rw [get_run] at done
  cases found : (joinsAt level).find? fun operator => state.sees operator.1 with
  | none =>
      rw [found] at done
      cases done
      rw [List.find?_eq_none] at found
      exact ⟨rfl, fun op known => by simpa using found _ (List.mem_map_of_mem known)⟩
  | some operator =>
      rw [found] at done
      obtain ⟨_, _, _, done⟩ := bind_ok done
      obtain ⟨_, _, _, done⟩ := bind_ok done
      obtain ⟨_, _, _, done⟩ := bind_ok done
      cases done

/-- Where a level ends, nothing stands that it goes on with. -/
theorem stops_of_parserAt {depth : Nat} (low : 2 ≤ level) (high : level ≤ 8)
    (run : parserAt (productions depth) level state = .ok value after) :
    after.Stops level := by
  induction high using Nat.decreasingInduction generalizing state value after with
  | self => exact stops_of_cast run
  | of_succ level below hypothesis =>
      rw [parserAt_eq_leftChain _ low (Nat.le_of_lt_succ below)] at run
      obtain ⟨first, middle, operand, run⟩ := bind_ok run
      have keeps current next state after (_ : state.Stops (level + 1))
          (goes : chainRound (joinsAt level)
            (parserAt (productions depth) (level + 1)) current
            state = .ok (.again next) after) : after.Stops (level + 1) := by
        obtain ⟨op, rhs, middle, operand, joins⟩ := chainRound_again goes
        exact (hypothesis (Nat.le_succ_of_le low) operand).sightless
          (sightless_joinOf _ _ _ _) joins
      obtain ⟨current, last, stops, done⟩ :=
        iterateFor_ends keeps (hypothesis (Nat.le_succ_of_le low) operand) run
      obtain ⟨rfl, absent⟩ := chainRound_done done
      exact
        { operators := fun op above => by
            rcases Nat.lt_or_eq_of_le above with further | here
            · exact stops.operators op further
            · refine absent op ?_
              subst here
              cases op <;> simp [operatorsAt, BinaryOp.level]
          assignment := fun loose => by omega
          comma := fun loose => by omega
          trailers := stops.trailers }

end Grammar
end MiniC
