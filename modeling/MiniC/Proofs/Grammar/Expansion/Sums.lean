import MiniC.Proofs.Grammar.Expansion.Exchange
import MiniC.Proofs.Grammar.Expansion.Pointers
import MiniC.Proofs.Grammar.Halting.Productions

/-!
# Numbers plus pointers

`n + q` is read as `((q)+(n))` is, if `n` is a number and `q` a pointer.  There the
pointer comes first, so that what the operands enter is entered in the other order.  The
operands change nothing else, for there are neither braces nor string literals in them.

The pointer is compared in two steps.  It is read behind the number as it would have been
read in its place (`Sum.repeated`), and there as it is read at the other place
(`Sum.rightOf`).
-/

namespace MiniC
namespace Grammar

variable {state there middle after reached : State}

/-- A number plus a pointer is the pointer plus the number. -/
theorem newAdd_comm {lhs rhs : NodeId} {left right : Ty} (tok : Nat)
    (number : state.program.nodeTy lhs = .ok left) (integer : left.isInteger = true)
    (pointer : state.program.nodeTy rhs = .ok right) (based : right.base?.isSome = true) :
    newAdd lhs rhs tok state = newAdd rhs lhs tok state := by
  have baseless : left.base? = none := by
    unfold Ty.isInteger at integer
    unfold Ty.base?
    split at integer <;> simp_all
  obtain ⟨element, base⟩ := Option.isSome_iff_exists.mp based
  have leftFine : checkArithmetic left tok state = .ok () state := by
    unfold checkArithmetic
    rw [integer]
    rfl
  have rightFine : checkArithmetic right tok state = .ok () state := by
    unfold checkArithmetic
    rw [based, Bool.or_true]
    rfl
  unfold newAdd nodeTy
  rw [query_run number, query_run pointer, bind_run leftFine, bind_run rightFine,
    query_run pointer, query_run number, bind_run rightFine, bind_run leftFine,
      baseless, base]

/-- Productions that may recur as deep as there are tokens ahead do not give up. -/
theorem productions_agree {tokens : TokenStream} {low depth : Nat}
    (enough : tokens.last < low + depth) :
    (productions depth).Agree tokens low (productions depth) := by
  rw [Productions.productions_eq_under]
  exact .under _ _ enough

/-- What ends a level in a stream ends it where the same token stands in another. -/
theorem State.Stops.of_alike {level : Nat} (stops : state.Stops level)
    (kind : there.current.kind = state.current.kind)
    (text : there.current.text = state.current.text) : there.Stops level := by
  have sees (symbol : String) : there.sees symbol = state.sees symbol := by
    change there.current.isSymbol symbol = state.current.isSymbol symbol
    unfold Token.isSymbol
    rw [kind, text]
  exact
    { operators := fun op above => (sees _).trans (stops.operators op above)
      assignment := fun loose => (sees _).trans (stops.assignment loose)
      comma := fun loose => (sees _).trans (stops.comma loose)
      trailers := fun symbol member => (sees _).trans (stops.trailers symbol member) }

namespace Placement

/-- What `((q)+(n))` consists of besides its operands. -/
structure SpellsSum (l : Placement) : Prop where
  right : l.right = l.first + 2
  left : l.left = l.right + (l.last - (l.operator + 1)) + 3
  rest : l.rest = l.left + (l.operator - l.first) + 2
  opensRight : (l.other.get (l.first + 1)).isSymbol "(" = true
  closesRight : (l.other.get (l.right + (l.last - (l.operator + 1)))).isSymbol ")" = true
  plus : (l.other.get (l.right + (l.last - (l.operator + 1)) + 1)).isSymbol "+" = true
  opensLeft : (l.other.get (l.right + (l.last - (l.operator + 1)) + 2)).isSymbol "(" =
    true
  closesLeft : (l.other.get (l.left + (l.operator - l.first))).isSymbol ")" = true
  closes : (l.other.get (l.left + (l.operator - l.first) + 1)).isSymbol ")" = true

/-- A sum whose operands have been read: a number, and a pointer that ends at the last
token. -/
structure Sum (l : Placement) where
  deep : Nat
  state : State
  start : State
  middle : State
  after : State
  first : NodeId
  number : NodeId
  pointer : NodeId
  here : state.pos = l.first
  head : parserAt (productions deep) 7 state = .ok first start
  rounds : Rounds (chainRound (joinsAt 6) (parserAt (productions deep) 7)) first
    start number middle
  operator : middle.pos = l.operator
  sign : middle.sees "+" = true
  second : parserAt (productions deep) 7 middle.next = .ok pointer after
  last : after.pos = l.last
  behind : l.behind = l.last
  plain : ∀ index, l.first ≤ index -> index < l.last ->
    (l.tokens.get index).isSymbol openBrace = false ∧
    (l.tokens.get index).kind.string? = none

namespace Sum

variable {l : Placement} (s : l.Sum)

/-! ## Windows on the operands -/

/-- The number at the other place. -/
def leftOf (entries : Entries) (token : entries.names.token = l.place)
    (ground : Program) : Window :=
  l.stretch entries token l.first l.operator l.left l.lefts l.places_left True
    s.state ground
    fun _ _ below => s.plain _ (Nat.le_add_right _ _) (Nat.lt_trans below l.ordered.2.1)

/-- The pointer at the other place. -/
def rightOf (entries : Entries) (token : entries.names.token = l.place)
    (ground : Program) : Window :=
  l.stretch entries token (l.operator + 1) l.last l.right l.rights
    l.places_right True s.state ground
    fun _ _ below => s.plain _ (by have := l.ordered; omega) below

/-- Entries that keep their references. -/
def unmoved : Entries :=
  ⟨.moving l.place, 0, s.middle.program.types.entries.size, 0, 0,
    s.middle.program.nodes.size, 0, fun _ _ => rfl, fun _ _ => rfl⟩

/-- The number adds what it enters. -/
theorem added_first (within : s.state.Within l.tokens) :
    Added l.tokens s.state s.middle := by
  have twin := @productions_twin (s.leftOf s.unmoved rfl .empty) False _ s.deep s.deep
  have reached : (s.leftOf s.unmoved rfl .empty).low ≤ s.state.pos :=
    Nat.le_of_eq s.here.symm
  have added := (Twins.parserAt twin (show 2 ≤ 7 by decide) (Nat.le_refl _) s.state
    s.state within reached).own.added _ _ s.head
  have each current : Twins (s.leftOf s.unmoved rfl .empty) False
      (s.leftOf s.unmoved rfl .empty).low (Mode.passing.pushed.round fun _ => True)
      (chainRound (joinsAt 6) (parserAt (productions s.deep) 7) current)
      (chainRound (joinsAt 6) (parserAt (productions s.deep) 7) current) :=
    .joinRound (fun _ => .parserAt twin (by decide)) current
  exact added.trans (Window.added_of_rounds each s.rounds added.within
    (Nat.le_trans reached added.forward))

theorem within_next (within : s.state.Within l.tokens) : s.middle.next.Within l.tokens :=
  Window.within_next (w := s.leftOf s.unmoved rfl .empty) (s.added_first within).within
    (kind_ne_eof_of_isSymbol s.sign)

/-- So does the pointer. -/
theorem added_second (within : s.state.Within l.tokens) :
    Added l.tokens s.middle.next s.after := by
  have twin := @productions_twin (s.rightOf s.unmoved rfl .empty) False _ s.deep s.deep
  exact (Twins.parserAt twin (show 2 ≤ 7 by decide)
    (Nat.le_refl _) s.middle.next s.middle.next (s.within_next within)
    (by change l.operator + 1 ≤ s.middle.pos + 1; rw [s.operator])).own.added _ _ s.second

/-! ## Blocks of entries -/

/-- The types that the number and the pointer enter. -/
def types : Blocks where
  low := max TypeTable.initial.entries.size s.state.program.types.entries.size
  left := s.middle.program.types.entries.size - s.state.program.types.entries.size
  right := s.after.program.types.entries.size - s.middle.program.types.entries.size

/-- The nodes that the number and the pointer enter. -/
def nodes : Blocks where
  low := s.state.program.nodes.size
  left := s.middle.program.nodes.size - s.state.program.nodes.size
  right := s.after.program.nodes.size - s.middle.program.nodes.size

/-- Sizes of the tables: in front of the number, behind it and behind the pointer. -/
structure Sized : Prop where
  low : s.types.low = s.state.program.types.entries.size
  middle : s.types.low + s.types.left = s.middle.program.types.entries.size
  high : s.types.low + s.types.left + s.types.right = s.after.program.types.entries.size
  nodesMiddle : s.nodes.low + s.nodes.left = s.middle.program.nodes.size
  nodesHigh : s.nodes.low + s.nodes.left + s.nodes.right = s.after.program.nodes.size

theorem sized (within : s.state.Within l.tokens)
    (primitive : TypeTable.initial.entries.size ≤ s.state.program.types.entries.size) :
    s.Sized := by
  have first := (s.added_first within).begins
  have second := (s.added_second within).begins
  have types := first.types.size_le
  have nodes := first.nodes.size_le
  have moreTypes := second.types.size_le
  have moreNodes := second.nodes.size_le
  simp only [State.next] at moreTypes moreNodes
  constructor <;> simp only [Sum.types, Sum.nodes] <;> omega

/-- The references behind the sum. -/
def exchanged : Renaming := .exchange s.types s.nodes (Nat.le_max_left _ _) l.place

/-- The references of the pointer, as against those that it would have in place of the
number. -/
def further : Renaming := .further s.types s.nodes (Nat.le_max_left _ _)

/-- Behind the sum nothing is entered in another order. -/
def crossing : Crossing :=
  l.crossing s.exchanged rfl s.state.program.types.entries.size s.state.program.nodes.size
    (s.types.low + s.types.left + s.types.right)
    (s.nodes.low + s.nodes.left + s.nodes.right)
    (fun _ outside => congrArg TyId.mk <| s.types.swap_outside <|
      outside.imp_left fun below => Nat.lt_of_lt_of_le below (Nat.le_max_right _ _))
    fun _ outside => congrArg NodeId.mk (s.nodes.swap_outside outside)

/-! ## The number -/

section

variable {s} (spells : l.SpellsSum) (tied : s.crossing.Tied s.state there)

theorem stops_left (spells : l.SpellsSum) (entries : Entries)
    (token : entries.names.token = l.place) (ground : Program) :
    (s.leftOf entries token ground).Stops :=
  spells.closesLeft

theorem stops_right (spells : l.SpellsSum) (entries : Entries)
    (token : entries.names.token = l.place) (ground : Program) :
    (s.rightOf entries token ground).Stops :=
  spells.closesRight

include tied in
theorem sized_of_tied : s.Sized :=
  s.sized tied.linked.within tied.linked.tables.primitive

include spells tied in
/-- The number changes nothing but the tables. -/
theorem rests_first : s.state.Rests s.middle := by
  have inside := l.lt_last spells.opensLeft
  have place := spells.left
  let w := s.leftOf s.unmoved rfl there.program
  have before := tied (.moving l.place) ⟨fun _ _ => rfl, fun _ _ => rfl, rfl⟩
  have tables := before.tables
  have linked : w.Linked s.state (there.at_ l.left) :=
    before.relocate (w := w) rfl rfl rfl
      ⟨tables.renames, tables.primitive, tables.ty_le, tables.tySize, tables.node_le,
        tables.nodeSize, fun _ => ⟨.refl _, .refl _⟩⟩
      (fun _ => .refl _) before.within.cursor (by change l.left ≤ l.other.last; omega)
      (Nat.le_of_eq s.here.symm)
      (by change l.left + l.first = s.state.pos + l.left; rw [s.here, Nat.add_comm])
  have : w.Closes True := ⟨fun _ => stops_left spells _ _ _⟩
  have halts := Halts.sum (productions_agree
    (show l.other.last < (there.at_ l.left).pos + 1 + (l.other.last + 1) by omega))
    (there.at_ l.left) ⟨l.ended, linked.tokens, linked.cursor⟩ (Nat.le_refl _)
  rcases linked.partialSum trivial s.head s.rounds s.operator (Nat.le_refl _)
    (Nat.le_refl _) with
    ⟨last, gaveUp⟩ | ⟨reached, -, behind⟩
  · exact absurd rfl (halts.failure _ _ gaveUp).2
  · exact behind.rests trivial

/-! ## The pointer in place of the number -/

variable (s) in
/-- The pointer behind the number, as against the pointer in its place. -/
def repeated : Window where
  tokens := l.tokens
  other := l.tokens
  names := s.further
  low := l.operator + 1
  high := 0
  base := l.operator + 1
  tyLow := s.types.low
  tyHigh := 0
  tyBase := s.types.low + s.types.left
  nodeLow := s.nodes.low
  nodeHigh := 0
  nodeBase := s.nodes.low + s.nodes.left
  whole := True
  plain := False
  anchor := .initial l.tokens
  ground := .empty
  sound := l.sound
  ended := l.sound.ended
  alike := fun _ _ => ⟨rfl, rfl⟩
  lines := fun _ _ _ => rfl
  places := fun _ _ => rfl
  spelled := fun _ _ => rfl
  quiet := False.elim
  loud := fun never _ => never
  tyFresh := fun _ _ => congrArg TyId.mk s.types.shift_behind
  nodeFresh := fun _ _ => congrArg NodeId.mk s.nodes.shift_behind

theorem fixes_moving : s.crossing.Fixes (.moving l.place) :=
  ⟨fun _ _ => rfl, fun _ _ => rfl, rfl⟩

/-- The references of the pointer leave alone what is in front of both operands. -/
theorem fixes_placing : s.crossing.Fixes (s.further.placing l.place) where
  ty := fun _ below => congrArg TyId.mk
    (s.types.shift_below (Nat.lt_of_lt_of_le below (Nat.le_max_right _ _)))
  node := fun _ below => congrArg NodeId.mk (s.nodes.shift_below below)
  token := rfl

theorem fixes_comp : s.crossing.Fixes (s.exchanged.comp s.further) where
  ty := fun id below => (congrArg s.exchanged.ty (fixes_placing.ty id below)).trans
    (s.crossing.fixed.ty id below)
  node := fun id below => (congrArg s.exchanged.node (fixes_placing.node id below)).trans
    (s.crossing.fixed.node id below)
  token := rfl

include spells tied in
/-- The pointer may be read in place of the number. -/
theorem repeated_linked :
    s.repeated.Linked (s.state.at_ (l.operator + 1)) s.middle.next := by
  have within := tied.linked.within
  have added := s.added_first within
  have sized := sized_of_tied tied
  have rests := rests_first spells tied
  have inside := s.within_next within
  have placed := tied _ fixes_placing
  have moved := tied _ fixes_moving
  have here : s.middle.next.pos = l.operator + 1 := congrArg (· + 1) s.operator
  have carries : s.state.Carries s.further s.state :=
    placed.carries.steady rfl moved.carries
  refine .of_carries ((carries.rests (.refl _) rests).moved _ s.middle.next.pos)
    ⟨within.same, here ▸ inside.cursor, within.types⟩
    inside.same inside.cursor (Nat.le_refl _) ?_ ?_ False.elim
  · rw [here]
    rfl
  · have renames := placed.tables.renames.steady rfl moved.tables.renames fixes_placing.ty
      fixes_placing.node
    exact
      { renames :=
          renames.grow added.begins.types added.begins.nodes rests.symbols rests.globals
        primitive := tied.linked.tables.primitive
        ty_le := Nat.le_of_eq sized.low
        tySize := by
          change s.middle.program.types.entries.size + s.types.low =
            s.state.program.types.entries.size + (s.types.low + s.types.left)
          rw [sized.middle, sized.low, Nat.add_comm]
        node_le := Nat.le_refl _
        nodeSize := by
          change s.middle.program.nodes.size + s.nodes.low =
            s.state.program.nodes.size + (s.nodes.low + s.nodes.left)
          rw [sized.nodesMiddle]
          exact Nat.add_comm _ _
        kept := False.elim }

include spells tied in
/-- What the pointer is in place of the number. -/
theorem exists_sooner : ∃ pointer after,
    parserAt (productions (l.tokens.last + 1)) 7 (s.state.at_ (l.operator + 1)) =
        .ok pointer after ∧
      carry s.further pointer = s.pointer ∧ s.repeated.Linked after s.after := by
  have linked := repeated_linked spells tied
  have halts := Halts.product (productions_agree
    (show l.tokens.last < (s.state.at_ (l.operator + 1)).pos + 1 +
      (l.tokens.last + 1) by omega))
    (s.state.at_ (l.operator + 1))
    ⟨l.sound.ended, linked.within.same, linked.within.cursor⟩
    (Nat.le_refl _)
  have twins := Twins.parserAt (@productions_twin s.repeated False _
    (l.tokens.last + 1) s.deep) (show 2 ≤ 7 by decide) (Nat.le_refl _)
    (s.state.at_ (l.operator + 1)) s.middle.next linked.within linked.reached
  cases run : parserAt (productions (l.tokens.last + 1)) 7
    (s.state.at_ (l.operator + 1)) with
  | ok pointer after =>
      rcases twins.agrees linked _ _ run (.inl trivial) with
        ⟨last, gaveUp⟩ | ⟨reached, alsoRun, behind⟩
      · cases s.second.symm.trans gaveUp
      · obtain ⟨same, rfl⟩ := EStateM.Result.ok.inj (s.second.symm.trans alsoRun)
        exact ⟨pointer, after, rfl, same.symm, behind⟩
  | error error after =>
      obtain ⟨also, last, failed⟩ := twins.fails linked trivial _ _ run
        (halts.failure _ _ run).2
      cases s.second.symm.trans failed

/-! ## At the other place -/

variable (s) in
/-- The pointer at the other place keeps its references. -/
def sooner : Entries where
  names := s.exchanged.comp s.further
  tyLow := 0
  tyHigh := s.types.low + s.types.right
  tyBase := 0
  nodeLow := 0
  nodeHigh := s.nodes.low + s.nodes.right
  nodeBase := 0
  tyFresh := fun _ below => congrArg TyId.mk (s.types.swap_shift below)
  nodeFresh := fun _ below => congrArg NodeId.mk (s.nodes.swap_shift below)

variable (s) in
/-- The number is entered behind it. -/
def later : Entries where
  names := s.exchanged
  tyLow := s.types.low
  tyHigh := s.types.low + s.types.left
  tyBase := s.types.low + s.types.right
  nodeLow := s.nodes.low
  nodeHigh := s.nodes.low + s.nodes.left
  nodeBase := s.nodes.low + s.nodes.right
  tyFresh := fun _ below => congrArg TyId.mk (s.types.swap_first below)
  nodeFresh := fun _ below => congrArg NodeId.mk (s.nodes.swap_first below)

section

variable {sooner : NodeId} {behind : State}
  (run : parserAt (productions (l.tokens.last + 1)) 7 (s.state.at_ (l.operator + 1)) =
    .ok sooner behind)
  (repeated : s.repeated.Linked behind s.after)

include tied repeated in
/-- What the tables hold behind the pointer, if it is read in place of the number. -/
theorem sizes_sooner :
    behind.program.types.entries.size = s.types.low + s.types.right ∧
      behind.program.nodes.size = s.nodes.low + s.nodes.right := by
  have sized := sized_of_tied tied
  have types : s.after.program.types.entries.size + s.types.low =
      behind.program.types.entries.size + (s.types.low + s.types.left) :=
        repeated.tables.tySize
  have nodes : s.after.program.nodes.size + s.nodes.low =
      behind.program.nodes.size + (s.nodes.low + s.nodes.left) := repeated.tables.nodeSize
  have := sized.high
  have := sized.nodesHigh
  omega

include spells tied repeated run in
/-- The pointer is read in its parentheses. -/
theorem reads_sooner {more : Nat} :
    (s.rightOf s.sooner rfl there.program).Reads
      (parserAt (productions more) 7) there.next
      (pure (carry s.exchanged (carry s.further sooner))) behind
        (l.right + (l.last - (l.operator + 1)) + 1) := by
  let w := s.rightOf s.sooner rfl there.program
  have ordered := l.ordered
  have place := tied.pos.trans s.here
  have right := spells.right
  have inside := l.lt_last spells.opensLeft
  obtain ⟨types, nodes⟩ := sizes_sooner tied repeated
  have before := tied _ fixes_comp
  have tables := before.tables
  have first := repeated_linked spells tied
  have linked : w.Linked (s.state.at_ (l.operator + 1)) there.next.next :=
    before.relocate (w := w) rfl rfl rfl
      ⟨tables.renames, tables.primitive, tables.ty_le, tables.tySize, tables.node_le,
        tables.nodeSize, fun _ => ⟨.refl _, .refl _⟩⟩
      (fun _ => .refl _) first.within.cursor
      (by change there.pos + 2 ≤ l.other.last; omega) (Nat.le_refl _)
      (by change there.pos + 2 + (l.operator + 1) = l.operator + 1 + l.right; omega)
  have : w.Closes True := ⟨fun _ => stops_right spells _ _ _⟩
  have twins (less : Nat) := Twins.parserAt (@productions_twin w True _
    (l.tokens.last + 1) less) (show 2 ≤ 7 by decide) (Nat.le_refl _) _ there.next.next
      linked.within linked.reached
  have last : behind.pos = l.last := by
    have pos : s.after.pos + (l.operator + 1) = behind.pos + (l.operator + 1) :=
      repeated.pos
    have := s.last
    omega
  have further : l.operator + 1 < behind.pos :=
    (twins 0).own.passes sooner behind run trivial
  have arrives (less : Nat) : w.Arrives sooner behind
      (parserAt (productions less) 7 there.next.next) :=
    (twins less).agrees linked sooner behind run
      (.inr ⟨.inr ⟨last, .inr trivial⟩, Nat.le_of_eq types, Nat.le_of_eq nodes⟩)
  have reads := @Window.Linked.operand _ _ _ _ linked
    (stops_right spells _ _ _) _ _ 7 more
    (State.sees_at spells.opensRight tied.tokens (congrArg (· + 1) place))
    (beginsExpr_of_parserAt (by decide) run) (by change l.operator + 1 < l.last; omega)
    (by decide) arrives last (by decide) (Window.stopsAt_of_plus spells.plus)
  rw [← comp]
  exact reads

variable {place : Nat}
    (holds : (s.rightOf s.sooner rfl there.program).Holds behind place reached)

include tied holds in
/-- The pointer changes nothing but the tables at the other place. -/
theorem rests_there : there.Rests reached :=
  (tied _ fixes_comp).carries.also (holds.linked.rests trivial)
    (holds.linked.carries.moved _ _)

include tied repeated holds in
/-- In front of the number the states go together again. -/
theorem linked_later (first : reached.pos + 2 = l.left) (inside : l.left ≤ l.other.last) :
    (s.leftOf s.later rfl reached.program).Linked s.state reached.next.next := by
  have sized := sized_of_tied tied
  have also := rests_there tied holds
  have size : reached.program.types.entries.size = behind.program.types.entries.size :=
    holds.linked.tables.tySize
  have nodeSize : reached.program.nodes.size = behind.program.nodes.size :=
    holds.linked.tables.nodeSize
  obtain ⟨types, nodes⟩ := sizes_sooner tied repeated
  obtain ⟨keepsTypes, keepsNodes⟩ := holds.linked.tables.kept trivial
  refine .of_carries ((tied.linked.carries.rests (.refl _) also).moved s.state.pos
    (reached.pos + 2))
    tied.linked.within holds.tokens (by change reached.pos + 2 ≤ l.other.last; omega)
    (Nat.le_of_eq s.here.symm)
    (by
      change reached.pos + 2 + l.first = s.state.pos + l.left
      rw [first, s.here, Nat.add_comm])
    ?_ fun _ => .refl _
  exact
    { renames :=
        tied.linked.tables.renames.grow keepsTypes keepsNodes also.symbols also.globals
      primitive := tied.linked.tables.primitive
      ty_le := Nat.le_of_eq sized.low
      tySize := by
        change reached.program.types.entries.size + s.types.low =
          s.state.program.types.entries.size + (s.types.low + s.types.right)
        rw [size, types, sized.low, Nat.add_comm]
      node_le := Nat.le_refl _
      nodeSize := by
        change reached.program.nodes.size + s.nodes.low =
          s.state.program.nodes.size + (s.nodes.low + s.nodes.right)
        rw [nodeSize, nodes]
        exact Nat.add_comm _ _
      kept := fun _ => ⟨.refl _, .refl _⟩ }

include tied repeated holds in
/-- Behind the number the states go together as behind the sum. -/
theorem holds_behind (spells : l.SpellsSum) {also : Nat} {reachedLast : State}
    (last : (s.leftOf s.later rfl reached.program).Holds s.middle also reachedLast)
    (rest : l.rest ≤ l.other.last) :
    s.crossing.behind.Holds s.after also reachedLast := by
  have within := tied.linked.within
  have sized := sized_of_tied tied
  have added := s.added_second within
  have first := rests_first spells tied
  have own : s.middle.next.Rests s.after :=
    (repeated_linked spells tied).carries.also
      ((holds.linked.rests trivial).moved _ behind.pos) repeated.carries
  have ownLast : s.state.Rests s.after :=
    @State.Rests.trans _ s.middle.next _ (first.moved s.state.pos s.middle.next.pos) own
  have there_ := rests_there tied holds
  have thereLast := tied.linked.carries.also first (last.linked.carries.moved s.middle.pos
    reachedLast.pos)
  have sameRest : s.after.pos + l.rest - l.behind = l.rest := by
    have := s.last
    have := s.behind
    omega
  refine ⟨last.pos, ?_⟩
  change s.crossing.behind.Linked s.after
    (reachedLast.at_ (s.after.pos + l.rest - l.behind))
  rw [sameRest]
  refine .of_carries ((tied.linked.carries.rests ownLast thereLast).moved
    s.after.pos l.rest)
    added.within last.tokens rest (Nat.le_of_eq (s.behind.trans s.last.symm))
    (by
      change l.rest + l.behind = s.after.pos + l.rest
      rw [s.last, s.behind, Nat.add_comm]) ?_ False.elim
  obtain ⟨keepsTypes, keepsNodes⟩ := last.linked.tables.kept trivial
  have types : reachedLast.program.types.entries.size + s.types.low =
      s.middle.program.types.entries.size + (s.types.low + s.types.right) :=
    last.linked.tables.tySize
  have nodes : reachedLast.program.nodes.size + s.nodes.low =
      s.middle.program.nodes.size + (s.nodes.low + s.nodes.right) :=
        last.linked.tables.nodeSize
  have primitive := tied.linked.tables.primitive
  obtain ⟨low, middle, high, nodesMiddle, nodesHigh⟩ := sized
  obtain ⟨sizeTypes, sizeNodes⟩ := sizes_sooner tied repeated
  exact
    { renames := last.linked.tables.renames.exchanged
        (holds.linked.tables.renames.grow keepsTypes keepsNodes
          (thereLast.symbols.trans there_.symbols.symm)
          (thereLast.globals.trans there_.globals.symm))
        repeated.tables.renames added.begins.types added.begins.nodes
          own.symbols own.globals
        (fun id above below => by
          refine ⟨⟨s.types.low + (id.index - (s.types.low + s.types.left))⟩,
            by simp only; omega, ?_⟩
          refine congrArg TyId.mk (s.types.shift_behind.trans ?_)
          omega)
        fun id above below => by
          refine ⟨⟨s.nodes.low + (id.index - (s.nodes.low + s.nodes.left))⟩,
            by simp only; omega, ?_⟩
          refine congrArg NodeId.mk (s.nodes.shift_behind.trans ?_)
          omega
      primitive := by omega
      ty_le := Nat.le_of_eq high
      tySize := congrArg (· + s.crossing.behind.tyLow)
        (show reachedLast.program.types.entries.size =
          s.after.program.types.entries.size by omega)
      node_le := Nat.le_of_eq nodesHigh
      nodeSize := congrArg (· + s.crossing.behind.nodeLow)
        (show reachedLast.program.nodes.size = s.after.program.nodes.size by omega)
      kept := False.elim }

include tied repeated holds in
/-- The number is read in its parentheses, behind the pointer. -/
theorem reads_later (spells : l.SpellsSum)
    (plus : place = l.right + (l.last - (l.operator + 1)) + 1) {more : Nat} :
    s.crossing.behind.Reads (parserAt (productions more) 7) reached.next
      (pure (carry s.exchanged s.number)) s.after
        (l.left + (l.operator - l.first) + 1) := by
  let w := s.leftOf s.later rfl reached.program
  have sized := sized_of_tied tied
  have ordered := l.ordered
  have left := spells.left
  have rest := spells.rest
  have here := holds.pos
  have inside := l.lt_last spells.closes
  have linked : w.Linked s.state reached.next.next :=
    linked_later tied repeated holds (by omega) (by omega)
  have stopped : w.Stops := stops_left spells _ _ _
  have : w.Closes True := ⟨fun _ => stopped⟩
  have arrives (less : Nat) : w.Arrives s.number s.middle
      (parserAt (productions less) 6 reached.next.next) :=
    linked.partialSum trivial s.head s.rounds s.operator (Nat.le_of_eq sized.middle.symm)
      (Nat.le_of_eq sized.nodesMiddle.symm)
  have reads := @Window.Linked.operand _ _ _ _ linked stopped _ _ 7 more
    (State.sees_at spells.opensLeft holds.tokens (by change reached.pos + 1 = _; omega))
    (beginsExpr_of_parserAt (by decide) s.head) (by rw [s.here]; exact ordered.1)
    (by decide) arrives s.operator (by decide)
    (Window.stopsAt_of_close spells.closes)
  exact reads.mono fun _ last => holds_behind tied repeated holds spells last (by omega)

end

include spells tied in
/-- The sum is read in its parentheses. -/
theorem reads {more : Nat} :
    s.crossing.behind.Reads (parserAt (productions more) 6) there
      (newAdd (carry s.exchanged s.pointer) (carry s.exchanged s.number)
          (l.right + (l.last - (l.operator + 1)) + 1) >>= fun node =>
        iterate node (chainRound (joinsAt 6) (parserAt (productions more) 7)))
          s.after l.rest := by
  obtain ⟨sooner, behind, run, same, repeated⟩ := exists_sooner spells tied
  have place := tied.pos.trans s.here
  have added := Sightless.newAdd (carry s.exchanged s.pointer)
    (carry s.exchanged s.number) (l.right + (l.last - (l.operator + 1)) + 1)
  have summed (less : Nat) : s.crossing.behind.Reads
      (parserAt (productions less) 6) there.next
      (newAdd (carry s.exchanged s.pointer) (carry s.exchanged s.number)
        (l.right + (l.last - (l.operator + 1)) + 1)) s.after
          (l.left + (l.operator - l.first) + 1) := by
    rw [← same]
    exact (reads_sooner spells tied run repeated).summed spells.plus
      (fun _ holds => reads_later tied repeated holds spells rfl)
      (Window.stopsAt_of_close spells.closes)
  have stops : s.crossing.behind.StopsAt 7 l.rest := by
    intro state tokens pos
    have alike := s.crossing.behind.alike 0 (.inl s.crossing.whole)
    have own : s.after.current = l.tokens.get (l.behind + 0) := by
      change s.after.tokens.get s.after.pos = _
      rw [repeated.tokens, s.last, s.behind]
      rfl
    have other : state.current = l.other.get (l.rest + 0) := by
      change state.tokens.get state.pos = _
      rw [tokens, pos]
      rfl
    exact (stops_of_parserAt (by decide) (by decide) s.second).of_alike
      (by rw [own, other]; exact alike.1) (by rw [own, other]; exact alike.2)
  have whole : s.crossing.behind.Reads (parserAt (productions more) 7) there
      (newAdd (carry s.exchanged s.pointer) (carry s.exchanged s.number)
        (l.right + (l.last - (l.operator + 1)) + 1)) s.after l.rest := by
    rw [show l.rest = l.left + (l.operator - l.first) + 1 + 1 from spells.rest] at stops ⊢
    exact .parenthesised (.again_expr summed added spells.closes (by decide)) added
      (State.sees_at l.opened tied.tokens place)
      (.of_sees (State.sees_at spells.opensRight tied.tokens (congrArg (· + 1) place))
        (by decide))
      spells.closes stops (by decide)
  rw [parserAt_eq_leftChain _ (by decide) (by decide)]
  refine whole.bind added fun node state _ pos => ?_
  rw [← pos]
  rfl

end

/-- A number plus a pointer is built as its expansion is. -/
theorem crosses (spells : l.SpellsSum) {left right : Ty}
    (number : s.after.program.nodeTy s.number = .ok left)
    (integer : left.isInteger = true)
    (pointer : s.after.program.nodeTy s.pointer = .ok right)
    (based : right.base?.isSome = true) (more : Nat) :
    s.crossing.Crosses True s.state (parserAt (productions s.deep) 6)
      (parserAt (productions more) 6) := by
  refine ⟨fun within => ⟨within, Nat.le_of_eq s.here, Nat.le_refl _, Nat.le_refl _⟩,
    fun _ there tied => ?_⟩
  rcases reads spells tied with gaveUp | ⟨reached, holds, same⟩
  · exact .of_outcome_endless gaveUp
  refine .of_outcome same ?_
  have sameRest : s.after.pos + l.rest - l.behind = l.rest := by
    have := s.last
    have := s.behind
    omega
  have linked : s.crossing.behind.Linked s.after reached := by
    have linked := holds.linked
    have pos := holds.pos
    change s.crossing.behind.Linked s.after
      (reached.at_ (s.after.pos + l.rest - l.behind))
      at linked
    rw [sameRest, ← pos] at linked
    exact linked
  rw [parserAt_eq_leftChain _ (by decide) (by decide)]
  change s.crossing.behind.Ends ((parserAt (productions s.deep) 7 >>= fun node =>
    iterate node (chainRound _ _)) s.state) _
  rw [bind_run s.head, iterate_run]
  refine .of_rounds s.rounds fun fewer => ?_
  cases fewer with
  | zero => exact .exhausted
  | succ fewer =>
      rw [iterateFor, bind_from
        (chainRound_run (show .add ∈ operatorsAt 6 by decide) s.sign), bind_assoc,
        bind_run s.second]
      have ends := ends_of_built linked (.newAdd s.pointer s.number s.middle.pos
          (l.right + (l.last - (l.operator + 1)) + 1))
        (fun current => @Twins.joinRound _ _ _ _ 6 _ _
          (fun _ => .parserAt (Crossing.behind_twin _ s.deep more) (show 2 ≤ 7 by decide))
            current)
        fewer
      refine .of_own ?_ ends
      simp only [bind_assoc, pure_bind]
      rw [outcome_bind, outcome_bind]
      refine congrArg (fun result => outcome result >>= _) ?_
      exact newAdd_comm s.middle.pos number integer pointer based

end Sum
end Placement
end Grammar
end MiniC
