import MiniC.Proofs.Program.Composition
import MiniC.Proofs.Grammar.Expansion.Placement
import MiniC.Proofs.Grammar.Expansion.Operands
import MiniC.Proofs.Grammar.Expansion.Reading

/-!
# Subscripts and arrows

`x[y]` is read as `(*((x)+(y)))` is, and `p->m` as `((*(p)).m)`: the operands come in the
same order, so that all nodes and types keep their references.
-/

namespace MiniC
namespace Grammar

variable {state there middle after : State} {deep more : Nat} {first pointer : NodeId}
  {start : State}

namespace Placement

variable (l : Placement)

/-- The tokens have other places, but nothing else has another reference. -/
def inPlace : Renaming := .moving l.place

/-- Entries that keep their references, up to those of a state. -/
def kept (state : State) : Entries :=
  ⟨l.inPlace, 0, state.program.types.entries.size, 0, 0, state.program.nodes.size, 0,
    fun _ _ => rfl, fun _ _ => rfl⟩

/-- The left operand, if nothing has another reference. -/
def leftKept (state : State) : Window :=
  l.stretch (l.kept state) rfl l.first l.operator l.left l.lefts l.places_left False
    (.initial l.tokens) .empty False.elim

/-- The right operand, if nothing has another reference. -/
def rightKept (state : State) : Window :=
  l.stretch (l.kept state) rfl (l.operator + 1) l.last l.right l.rights
    l.places_right False (.initial l.tokens) .empty False.elim

/-- The crossing at which nothing has another reference. -/
def crossingKept (state : State) : Crossing :=
  l.crossing l.inPlace rfl state.program.types.entries.size state.program.nodes.size 0 0
    (fun _ _ => rfl) fun _ _ => rfl

variable {l}

/-! ## The left operand -/

/-- What the left operand adds. -/
theorem added_leftKept (within : state.Within l.tokens) (here : state.pos = l.first)
    (head : primary (productions deep) state = .ok first start)
    (rounds : Rounds (trailerRound (productions deep)) first start pointer middle) :
    Added l.tokens state middle := by
  have twin := @productions_twin (l.leftKept state) False _ deep deep
  have reached : (l.leftKept state).low ≤ state.pos := Nat.le_of_eq here.symm
  have added :=
    (Twins.primary twin (Nat.le_refl _) state state within reached).own.added _ _ head
  have each current : Twins (l.leftKept state) False (l.leftKept state).low
      (Mode.passing.pushed.round fun _ => True) (trailerRound (productions deep) current)
      (trailerRound (productions deep) (carry l.inPlace current)) :=
    .trailerRound twin current
  exact added.trans (Window.added_of_rounds each rounds added.within
    (Nat.le_trans reached added.forward))

section

variable (here : state.pos = l.first) (left : l.left = l.first + 4)
  (opens : (l.other.get (l.first + 3)).isSymbol "(" = true)
  (tied : (l.crossingKept state).Tied state there)

include here left opens tied

/-- The states in front of the left operand go together. -/
theorem linked_leftKept (last : State) :
    (l.leftKept last).Linked state there.next.next.next.next := by
  have place : there.pos = l.first := tied.pos.trans here
  have inside := l.lt_last opens
  have tables := tied.linked.tables
  exact tied.linked.relocate (w := l.leftKept last) rfl rfl rfl
    ⟨tables.renames, tables.primitive, tables.ty_le, tables.tySize, tables.node_le,
        tables.nodeSize, False.elim⟩ False.elim
    tied.linked.within.cursor (by change there.pos + 4 ≤ l.other.last; omega)
    (Nat.le_of_eq here.symm)
    (by change there.pos + 4 + l.first = state.pos + l.left; omega)

/-- The left operand is read in its parentheses. -/
theorem reads_leftKept
    (head : primary (productions deep) state = .ok first start)
    (rounds : Rounds (trailerRound (productions deep)) first start pointer middle)
    (operator : middle.pos = l.operator)
    (closes : (l.other.get (l.operator + 4)).isSymbol ")" = true) {level : Nat}
    (le : level ≤ 8) (stops : (l.leftKept middle).StopsAt level (l.operator + 5)) :
    (l.leftKept middle).Reads (parserAt (productions more) level) there.next.next.next
      (pure (carry l.inPlace pointer)) middle (l.operator + 5) := by
  have ordered := l.ordered.1
  have stopped : (l.leftKept middle).Stops := by
    change (l.other.get (l.left + (l.operator - l.first))).isSymbol ")" = true
    rw [show l.left + (l.operator - l.first) = l.operator + 4 by omega]
    exact closes
  have : (l.leftKept middle).Closes True := ⟨fun _ => stopped⟩
  have linked := linked_leftKept here left opens tied middle
  have behind : (l.leftKept middle).base +
      ((l.leftKept middle).high - (l.leftKept middle).low) + 1
      = l.operator + 5 := by
    change l.left + (l.operator - l.first) + 1 = _
    omega
  have arrives (less : Nat) : (l.leftKept middle).Arrives pointer middle
      (parserAt (productions less) 8 there.next.next.next.next) :=
    linked.postfix trivial head rounds operator (Nat.le_refl _) (Nat.le_refl _)
  rw [← behind] at stops ⊢
  exact linked.operand stopped
    (State.sees_at opens tied.tokens (congrArg (· + 3) (tied.pos.trans here)))
    (beginsExpr_of_primary head) (by rw [here]; exact ordered)
    (by decide) arrives operator le stops

end

/-! ## The right operand -/

/-- The right operand of a subscript is read in its parentheses, behind the left one. -/
theorem reads_rightKept {index : NodeId} (right : l.right = l.operator + 7)
    (holds : (l.leftKept middle).Holds middle (l.operator + 5) there)
    (operator : middle.pos = l.operator) (bracket : middle.sees "[" = true)
    (inner : (productions deep).expr middle.next = .ok index after)
    (last : after.pos = l.last)
    (opens : (l.other.get (l.operator + 6)).isSymbol "(" = true)
    (closes : (l.other.get (l.last + 6)).isSymbol ")" = true) {level : Nat}
    (le : level ≤ 8) (stops : (l.rightKept after).StopsAt level (l.last + 7)) :
    (l.rightKept after).Reads (parserAt (productions more) level) there.next
      (pure (carry l.inPlace index)) after (l.last + 7) := by
  have place := holds.pos
  have inside := l.lt_last opens
  have linked : (l.rightKept after).Linked middle.next there.next.next := by
    have tables := holds.linked.tables
    exact holds.linked.relocate (w := l.rightKept after) rfl rfl rfl
      ⟨tables.renames, tables.primitive, tables.ty_le, tables.tySize, tables.node_le,
        tables.nodeSize, False.elim⟩ False.elim
      (Grammar.lt_last l.sound.ended holds.linked.within.same
        (kind_ne_eof_of_isSymbol bracket))
      (by change there.pos + 2 ≤ l.other.last; omega)
      (by change l.operator + 1 ≤ middle.pos + 1; omega)
      (by change there.pos + 2 + (l.operator + 1) = middle.pos + 1 + l.right; omega)
  cases deep with
  | zero => cases inner
  | succ deep =>
      have stopped : (l.rightKept after).Stops := by
        change (l.other.get (l.right + (l.last - (l.operator + 1)))).isSymbol ")" = true
        have onto : l.right + (l.last - (l.operator + 1)) = l.last + 6 := by
          have := l.ordered
          omega
        rw [onto]
        exact closes
      have : (l.rightKept after).Closes True := ⟨fun _ => stopped⟩
      have twins (less : Nat) :=
        Twins.expr (@productions_twin (l.rightKept after) True _ deep less)
          (Nat.le_refl _) _ there.next.next linked.within linked.reached
      have further : middle.pos + 1 < after.pos :=
        (twins 0).own.passes index after inner trivial
      have arrives (less : Nat) : (l.rightKept after).Arrives index after
          (parserAt (productions less) 0 there.next.next) :=
        (twins less).agrees linked index after inner
          (.inr ⟨.inr ⟨last, .inr trivial⟩, Nat.le_refl _, Nat.le_refl _⟩)
      have behind : (l.rightKept after).base +
          ((l.rightKept after).high - (l.rightKept after).low) + 1 = l.last + 7 := by
        change l.right + (l.last - (l.operator + 1)) + 1 = _
        omega
      rw [← behind] at stops ⊢
      exact linked.operand stopped
        (State.sees_at opens holds.tokens (congrArg (· + 1) place))
        (beginsExpr_of_parserAt (Nat.zero_le 8) inner)
        (by change middle.pos + 1 < l.last; omega) (by decide) arrives last le stops

/-! ## Behind the operands -/

/-- States that go together behind the last operand go together behind the occurrence. -/
theorem linked_behindKept {w : Window} {place own : Nat} (tokens : w.tokens = l.tokens)
    (other : w.other = l.other) (names : w.names = l.inPlace)
    (entries : (w.tyLow = 0 ∧ w.tyBase = 0) ∧ w.nodeLow = 0 ∧ w.nodeBase = 0)
    (holds : w.Holds middle place there) (rest : place = l.rest) (here : own = l.behind)
    (inside : own ≤ l.tokens.last) {symbol : String}
    (closes : (l.other.get (l.rest - 1)).isSymbol symbol = true) :
    (l.crossingKept state).behind.Linked (middle.at_ own) there := by
  have at_ := holds.pos
  have further := l.lt_last closes
  have tables := holds.linked.tables
  obtain ⟨⟨tyLow, tyBase⟩, nodeLow, nodeBase⟩ := entries
  have size := tables.tySize
  have nodes := tables.nodeSize
  exact holds.linked.relocate (w := (l.crossingKept state).behind) tokens.symm other.symm
    names.symm
    { renames := by
        have renames := tables.renames
        rw [names] at renames
        exact renames
      primitive := tables.primitive
      ty_le := Nat.zero_le _
      tySize := by rw [tyLow, tyBase] at size; exact size
      node_le := Nat.zero_le _
      nodeSize := by rw [nodeLow, nodeBase] at nodes; exact nodes
      kept := False.elim } False.elim
    (tokens ▸ inside) (other ▸ by omega) (Nat.le_of_eq here.symm)
    (by change there.pos + l.behind = own + l.rest; omega)

/-- What follows an expression that has been built in both streams. -/
theorem ends_of_built {w : Crossing} (linked : w.behind.Linked state there)
    {build other : Parser NodeId}
    (twins : Twins w.behind False w.behind.low .blind build other)
    {round beside : NodeId -> Parser (Round NodeId NodeId)}
    (each : ∀ current, Twins w.behind False w.behind.low (Mode.passing.pushed.round
      fun _ => True)
      (round current) (beside (carry w.behind.names current))) (fewer : Nat) :
    w.behind.Ends ((build >>= fun node => iterateFor round fewer node) state)
      ((other >>= fun node => iterate node beside) there) := by
  have step : w.behind.Ends (build state) (other there) :=
    .of_twins w.whole (twins (Nat.le_refl _) _ _ linked.within linked.reached) linked
  refine step.bind fun node last reached _ linked => ?_
  rw [iterate_run]
  have loop := Twins.iterateFor (fun _ => True) (fun current _ => each current) fewer
    (reached.tokens.last + 2) node trivial
  exact .of_twins w.whole (loop (Nat.le_refl _) _ _ linked.within linked.reached) linked

/-! ## Both forms -/

variable (l)

/-- What `(*((x)+(y)))` consists of besides its operands. -/
structure SpellsIndex : Prop where
  left : l.left = l.first + 4
  right : l.right = l.operator + 7
  rest : l.rest = l.last + 9
  star : (l.other.get (l.first + 1)).isSymbol "*" = true
  outer : (l.other.get (l.first + 2)).isSymbol "(" = true
  inner : (l.other.get (l.first + 3)).isSymbol "(" = true
  closesLeft : (l.other.get (l.operator + 4)).isSymbol ")" = true
  plus : (l.other.get (l.operator + 5)).isSymbol "+" = true
  opensRight : (l.other.get (l.operator + 6)).isSymbol "(" = true
  closesRight : (l.other.get (l.last + 6)).isSymbol ")" = true
  closesSum : (l.other.get (l.last + 7)).isSymbol ")" = true
  closes : (l.other.get (l.last + 8)).isSymbol ")" = true

/-- What `((*(p)).m)` consists of besides its operands. -/
structure SpellsArrow : Prop where
  left : l.left = l.first + 4
  right : l.right = l.operator + 7
  rest : l.rest = l.operator + 9
  outer : (l.other.get (l.first + 1)).isSymbol "(" = true
  star : (l.other.get (l.first + 2)).isSymbol "*" = true
  inner : (l.other.get (l.first + 3)).isSymbol "(" = true
  closesLeft : (l.other.get (l.operator + 4)).isSymbol ")" = true
  closesStar : (l.other.get (l.operator + 5)).isSymbol ")" = true
  dot : (l.other.get (l.operator + 6)).isSymbol "." = true
  closes : (l.other.get (l.operator + 8)).isSymbol ")" = true

variable {l}

/-- What is read at the other place of a subscript. -/
theorem SpellsIndex.reads (spells : l.SpellsIndex) {index : NodeId}
    (here : state.pos = l.first)
    (head : primary (productions deep) state = .ok first start)
    (rounds : Rounds (trailerRound (productions deep)) first start pointer middle)
    (operator : middle.pos = l.operator) (bracket : middle.sees "[" = true)
    (inner : (productions deep).expr middle.next = .ok index after)
    (last : after.pos = l.last) (tied : (l.crossingKept state).Tied state there) :
    (l.rightKept after).Reads (trailer (productions more)) there
      ((newAdd (carry l.inPlace pointer) (carry l.inPlace index)
        (l.operator + 5) >>= fun sum =>
        newNode (.deref sum) there.next.pos) >>= fun node =>
          iterate node (trailerRound (productions more))) after l.rest := by
  have tokens : there.tokens = l.other := tied.tokens
  have place : there.pos = l.first := tied.pos.trans here
  have added :=
    Sightless.newAdd (carry l.inPlace pointer) (carry l.inPlace index) (l.operator + 5)
  have summed (less : Nat) : (l.rightKept after).Reads (parserAt (productions less) 6)
      there.next.next.next (newAdd (carry l.inPlace pointer) (carry l.inPlace index)
        (l.operator + 5)) after (l.last + 7) :=
    (reads_leftKept here spells.left spells.inner tied head rounds operator
      spells.closesLeft
      (by decide) (Window.stopsAt_of_plus spells.plus)).summed spells.plus
        (fun reached holds => reads_rightKept spells.right holds operator
          bracket inner last spells.opensRight spells.closesRight (by decide)
            (Window.stopsAt_of_close spells.closesSum))
        (Window.stopsAt_of_close spells.closesSum)
  have closed (less : Nat) : (l.rightKept after).Reads (parserAt (productions less) 8)
      there.next.next (newAdd (carry l.inPlace pointer) (carry l.inPlace index)
        (l.operator + 5)) after (l.last + 8) :=
    .parenthesised (.again_expr summed added spells.closesSum (by decide)) added
      (State.sees_at spells.outer tokens (congrArg (· + 2) place))
      (.of_sees (State.sees_at spells.inner tokens (congrArg (· + 3) place)) (by decide))
      spells.closesSum (Window.stopsAt_of_close spells.closes) (by decide)
  have starred (less : Nat) : (l.rightKept after).Reads
      (parserAt (productions less) 8) there.next
      (newAdd (carry l.inPlace pointer) (carry l.inPlace index)
        (l.operator + 5) >>= fun sum =>
        newNode (.deref sum) there.next.pos) after (l.last + 8) :=
    .starred (.again_cast closed) added
      (State.sees_at spells.star tokens (congrArg (· + 1) place))
  have built := added.bind fun sum => Sightless.newNode (.deref sum) there.next.pos
  rw [show l.rest = l.last + 8 + 1 from spells.rest]
  exact .trailed (.again_expr starred built spells.closes (by decide)) built
    (State.sees_at l.opened tokens place)
    (State.sees_eq_false (State.sees_at spells.star tokens (congrArg (· + 1) place))
      (by decide)) spells.closes

/-- A subscript is built as its expansion is. -/
theorem SpellsIndex.crosses (spells : l.SpellsIndex) {index : NodeId}
    (behind : l.behind = l.last + 1) (here : state.pos = l.first)
    (head : primary (productions deep) state = .ok first start)
    (rounds : Rounds (trailerRound (productions deep)) first start pointer middle)
    (operator : middle.pos = l.operator) (bracket : middle.sees "[" = true)
    (inner : (productions deep).expr middle.next = .ok index after)
    (last : after.pos = l.last) (closes : after.sees "]" = true) (more : Nat) :
    (l.crossingKept state).Crosses True state (trailer (productions deep))
      (trailer (productions more)) := by
  refine ⟨fun within => ⟨within, Nat.le_of_eq here, Nat.le_refl _, Nat.le_refl _⟩,
    fun _ there tied => ?_⟩
  rcases spells.reads here head rounds operator bracket inner last tied with
    gaveUp | ⟨reached, holds, same⟩
  · exact .of_outcome_endless gaveUp
  refine .of_outcome same ?_
  have linked : (l.crossingKept state).behind.Linked after.next reached :=
    linked_behindKept rfl rfl rfl ⟨⟨rfl, rfl⟩, rfl, rfl⟩ holds rfl
      ((congrArg (· + 1) last).trans behind.symm)
      (Grammar.lt_last l.sound.ended holds.linked.within.same
        (kind_ne_eof_of_isSymbol closes))
      (show (l.other.get (l.rest - 1)).isSymbol ")" = true by
        rw [spells.rest]
        exact spells.closes)
  change (l.crossingKept state).behind.Ends
    ((primary (productions deep) >>= fun node => iterate node (trailerRound _)) state) _
  rw [bind_run head, iterate_run]
  refine .of_rounds rounds fun fewer => ?_
  cases fewer with
  | zero => exact .exhausted
  | succ fewer =>
      rw [iterateFor, bind_from (trailerRound_of_bracket bracket), bind_assoc,
        bind_run inner, bind_assoc, bind_run (expect_run closes)]
      have twins : Twins (l.crossingKept state).behind False
        (l.crossingKept state).behind.low .blind
          (newAdd pointer index middle.pos >>= fun sum => newNode (.deref sum) middle.pos)
          (newAdd (carry l.inPlace pointer) (carry l.inPlace index)
            (l.operator + 5) >>= fun sum => newNode (.deref sum) there.next.pos) :=
        .bind (.newAdd _ _ _ _) fun _ => .newNode (.inl rfl)
      have ends := ends_of_built linked twins
        (fun current => .trailerRound (Crossing.behind_twin _ deep more) current) fewer
      simpa only [bind_assoc, pure_bind] using ends

/-- What is read at the other place of an arrow. -/
theorem SpellsArrow.reads (spells : l.SpellsArrow) (here : state.pos = l.first)
    (head : primary (productions deep) state = .ok first start)
    (rounds : Rounds (trailerRound (productions deep)) first start pointer middle)
    (operator : middle.pos = l.operator)
    (identifier : (l.other.get l.right).isIdentifier = true)
    (tied : (l.crossingKept state).Tied state there) :
    (l.leftKept middle).Reads (trailer (productions more)) there
      ((newNode (.deref (carry l.inPlace pointer)) there.next.next.pos >>= fun node =>
        memberNamed node ((l.other.get l.right).text, l.right)) >>= fun node =>
          iterate node (trailerRound (productions more))) middle l.rest := by
  have tokens : there.tokens = l.other := tied.tokens
  have place : there.pos = l.first := tied.pos.trans here
  have starred (less : Nat) : (l.leftKept middle).Reads (parserAt (productions less) 8)
      there.next.next (newNode (.deref (carry l.inPlace pointer)) there.next.next.pos)
        middle (l.operator + 5) := by
    have reads : (l.leftKept middle).Reads (parserAt (productions less) 8) there.next.next
        (pure (carry l.inPlace pointer) >>= fun node =>
          newNode (.deref node) there.next.next.pos) middle (l.operator + 5) :=
      .starred (.again_cast fun less =>
        reads_leftKept here spells.left spells.inner tied head
        rounds operator spells.closesLeft (Nat.le_refl 8)
          (Window.stopsAt_of_close spells.closesStar)) (.pure _)
        (State.sees_at spells.star tokens (congrArg (· + 2) place))
    rwa [pure_bind] at reads
  have dereferenced :=
    Sightless.newNode (.deref (carry l.inPlace pointer)) there.next.next.pos
  have accessed (less : Nat) : (l.leftKept middle).Reads
      (parserAt (productions less) 8) there.next
      (newNode (.deref (carry l.inPlace pointer)) there.next.next.pos >>= fun node =>
        memberNamed node ((l.other.get l.right).text, l.right)) middle
          (l.operator + 8) := by
    have opens : there.next.sees "(" = true :=
      State.sees_at spells.outer tokens (congrArg (· + 1) place)
    have begins : there.next.next.BeginsExpr :=
      .of_sees (State.sees_at spells.star tokens (congrArg (· + 2) place)) (by decide)
    refine .congr (congrArg outcome (cast_of_parenthesis opens begins.untyped)) ?_
    rw [show l.right = l.operator + 5 + 2 from spells.right] at identifier ⊢
    exact .accessed (.again_expr starred dereferenced spells.closesStar (by decide))
      dereferenced opens begins.closed spells.closesStar spells.dot identifier
        (Window.stopsAt_of_close spells.closes)
  have built := dereferenced.bind fun node =>
    Sightless.memberNamed node ((l.other.get l.right).text, l.right)
  rw [show l.rest = l.operator + 8 + 1 from spells.rest]
  exact .trailed (.again_expr accessed built spells.closes (by decide)) built
    (State.sees_at l.opened tokens place)
    (State.sees_eq_false (State.sees_at spells.outer tokens (congrArg (· + 1) place))
      (by decide)) spells.closes

/-- An arrow is built as its expansion is. -/
theorem SpellsArrow.crosses (spells : l.SpellsArrow) (last : l.last = l.operator + 2)
    (behind : l.behind = l.last) (here : state.pos = l.first)
    (head : primary (productions deep) state = .ok first start)
    (rounds : Rounds (trailerRound (productions deep)) first start pointer middle)
    (operator : middle.pos = l.operator) (arrow : middle.sees "->" = true)
    (identifier : middle.next.current.isIdentifier = true) (more : Nat) :
    (l.crossingKept state).Crosses True state (trailer (productions deep))
      (trailer (productions more)) := by
  refine ⟨fun within => ⟨within, Nat.le_of_eq here, Nat.le_refl _, Nat.le_refl _⟩,
    fun _ there tied => ?_⟩
  have within : middle.Within l.tokens :=
    (added_leftKept tied.linked.within here head rounds).within
  obtain ⟨kind, text, -⟩ := Token.content_eq (l.rights 0 (by omega))
  have name : middle.next.current = l.tokens.get (l.operator + 1) := by
    change middle.tokens.get (middle.pos + 1) = _
    rw [within.same, operator]
  have alsoIdentifier : (l.other.get l.right).isIdentifier = true := by
    rw [name] at identifier
    unfold Token.isIdentifier at identifier ⊢
    exact (congrArg (· == TokenKind.identifier) kind).trans identifier
  rcases spells.reads here head rounds operator alsoIdentifier tied with
    gaveUp | ⟨reached, holds, same⟩
  · exact .of_outcome_endless gaveUp
  refine .of_outcome same ?_
  have further := @Grammar.lt_last _ middle.next l.sound.ended within.same
    (kind_ne_eof_of_isIdentifier identifier)
  have linked :
      (l.crossingKept state).behind.Linked (middle.at_ (middle.pos + 2)) reached :=
    linked_behindKept rfl rfl rfl ⟨⟨rfl, rfl⟩, rfl, rfl⟩ holds rfl (by omega) further
      (show (l.other.get (l.rest - 1)).isSymbol ")" = true by
        rw [spells.rest]
        exact spells.closes)
  change (l.crossingKept state).behind.Ends
    ((primary (productions deep) >>= fun node => iterate node (trailerRound _)) state) _
  rw [bind_run head, iterate_run]
  refine .of_rounds rounds fun fewer => ?_
  cases fewer with
  | zero => exact .exhausted
  | succ fewer =>
      have named : carry l.inPlace (middle.next.current.text, middle.pos + 1) =
          ((l.other.get l.right).text, l.right) := by
        refine Prod.ext ?_ ?_
        · exact (congrArg Token.text name).trans text.symm
        · change l.place (middle.pos + 1) = l.right
          have placed := l.places_right 0 (by omega)
          rw [operator]
          exact placed
      have twins : Twins (l.crossingKept state).behind False
        (l.crossingKept state).behind.low .blind
          (newNode (.deref pointer) middle.pos >>= fun node =>
            memberNamed node (middle.next.current.text, middle.pos + 1))
          (newNode (.deref (carry l.inPlace pointer)) there.next.next.pos >>= fun node =>
            memberNamed node ((l.other.get l.right).text, l.right)) := by
        rw [← named]
        exact .bind (.newNode (.inl rfl)) fun node => .memberNamed node _
      refine .of_own ?_ (ends_of_built linked twins
        (fun current => .trailerRound (Crossing.behind_twin _ deep more) current) fewer)
      rw [iterateFor, bind_from (trailerRound_of_arrow arrow)]
      simp only [bind_assoc, pure_bind]
      refine (Sightless.newNode _ _).outcome_bind fun node after tokens pos => ?_
      have here : after.current = middle.next.current := by
        change after.tokens.get after.pos = middle.next.tokens.get middle.next.pos
        rw [tokens, pos]
      have moved : after.next = after.at_ (middle.pos + 2) :=
        congrArg after.at_ (congrArg (· + 1) pos)
      rw [outcome_bind, outcome_memberAccess node (here ▸ identifier),
        ← outcome_bind, here, pos, moved]
      rfl

end Placement
end Grammar
end MiniC
