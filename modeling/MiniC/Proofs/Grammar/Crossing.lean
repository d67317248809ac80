import MiniC.Proofs.Grammar.Occurrence

/-!
# Going on behind other tokens

Two streams show the same tokens up to a place at which the one shows a stretch of tokens
and the other shows others, that begin with an opening parenthesis, and behind it the same
tokens again.  A parser `Crosses` the place from a state before it if what it makes of
both streams is the same behind the place.  That is to be shown of the production that
reads the stretch, and then holds of every production that comes to call it.

Before the place nothing has been renamed that was entered before it.  What the parser
holds when it comes to the place is therefore the same under every renaming that is fixed
on what was entered before.
-/

namespace MiniC
namespace Grammar

variable {α β σ : Type}

/-- A place at which other tokens stand in another stream.  The window shows what is
behind it. -/
structure Crossing where
  behind : Window
  whole : behind.whole
  braced : ¬ behind.plain
  /-- The first token of the place. -/
  start : Nat
  /-- The number of types and of nodes that have been entered before the place. -/
  types : Nat
  nodes : Nat
  alike : ∀ n, n < start -> (behind.other.get n).kind = (behind.tokens.get n).kind ∧
    (behind.other.get n).text = (behind.tokens.get n).text
  lines : ∀ n, n ≤ start -> (behind.other.get n).line = (behind.tokens.get n).line
  places : ∀ n, n < start -> behind.names.token n = n
  opened : (behind.other.get start).isSymbol "(" = true
  second : (behind.other.get (start + 1)).isSymbol "(" = true ∨
    (behind.other.get (start + 1)).isSymbol "*" = true
  tyFixed : ∀ id : TyId, id.index < types -> behind.names.ty id = id
  nodeFixed : ∀ id : NodeId, id.index < nodes -> behind.names.node id = id

namespace Crossing

variable (x : Crossing)

/-- A renaming that is fixed on what has been entered before the place. -/
structure Fixes (names : Renaming) : Prop where
  ty : ∀ id : TyId, id.index < x.types -> names.ty id = id
  node : ∀ id : NodeId, id.index < x.nodes -> names.node id = id
  token : names.token = x.behind.names.token

theorem fixed : x.Fixes x.behind.names := ⟨x.tyFixed, x.nodeFixed, rfl⟩

/-- What is before the place. -/
def before (names : Renaming) (fixes : x.Fixes names) : Window where
  tokens := x.behind.tokens
  other := x.behind.other
  names := names
  low := 0
  high := x.start
  base := 0
  tyLow := 0
  tyHigh := x.types
  tyBase := 0
  nodeLow := 0
  nodeHigh := x.nodes
  nodeBase := 0
  whole := False
  plain := False
  anchor := .initial x.behind.tokens
  ground := .empty
  sound := x.behind.sound
  ended := x.behind.ended
  alike := fun n shown => by
    simp only [Nat.zero_add] at shown ⊢
    exact x.alike n (shown.resolve_left id)
  lines := fun _ n shown => by
    simp only [Nat.zero_add] at shown ⊢
    exact x.lines n (Nat.le_of_lt (shown.resolve_left id))
  places := fun n shown => by
    simp only [Nat.zero_add] at shown ⊢
    rw [fixes.token]
    exact x.places n (shown.resolve_left id)
  spelled := fun tok identifier => by
    rw [fixes.token]
    exact x.behind.spelled tok identifier
  quiet := False.elim
  loud := fun never => never.elim
  tyFresh := fun n shown => by
    simp only [Nat.zero_add] at shown ⊢
    exact fixes.ty ⟨n⟩ (shown.resolve_left id)
  nodeFresh := fun n shown => by
    simp only [Nat.zero_add] at shown ⊢
    exact fixes.node ⟨n⟩ (shown.resolve_left id)

instance (names : Renaming) (fixes : x.Fixes names) :
    (x.before names fixes).Opens True where
  opens := fun _ => by
    change (x.behind.other.get (0 + (x.start - 0))).isSymbol "(" = true
    rw [Nat.zero_add]
    exact x.opened

/-- States that go together before the place. -/
def Tied (state there : State) : Prop :=
  ∀ names (fixes : x.Fixes names), (x.before names fixes).Linked state there

/-- A value that every such renaming treats alike. -/
def Settles [Carried α] (value : α) : Prop :=
  ∀ names, x.Fixes names -> carry names value = carry x.behind.names value

/-- A state that is not behind the place. -/
structure Ahead (state : State) : Prop where
  within : state.Within x.behind.tokens
  pos : state.pos ≤ x.start
  types : state.program.types.entries.size ≤ x.types
  nodes : state.program.nodes.size ≤ x.nodes

variable {x} {state there middle after : State}

theorem Ahead.of_added (ahead : x.Ahead after) (within : state.Within x.behind.tokens)
    (added : Added x.behind.tokens state after) : x.Ahead state where
  within := within
  pos := Nat.le_trans added.forward ahead.pos
  types := Nat.le_trans added.begins.types.size_le ahead.types
  nodes := Nat.le_trans added.begins.nodes.size_le ahead.nodes

/-- What a parser adds before the place, and what it gives. -/
theorem added_before [Carried α] {names : Renaming} {fixes : x.Fixes names} {mild : Prop}
    {mode : Mode α} {parser beside : Parser α}
    (twins : Twins (x.before names fixes) mild 0 mode parser beside)
    (within : state.Within x.behind.tokens) {value : α}
    (run : parser state = .ok value after) :
    Added x.behind.tokens state after ∧ mode.gives value :=
  let own := (twins (Nat.le_refl 0) state state within (Nat.zero_le _)).own
  ⟨own.added value after run, own.gives value after run⟩

/-- The same where the other stream is the first again. -/
theorem added_fixed [Carried α] {mode : Mode α} {parser beside : Parser α}
    (twins : Twins (x.before _ x.fixed) False 0 mode parser beside)
    (within : state.Within x.behind.tokens) {value : α}
    (run : parser state = .ok value after) :
    Added x.behind.tokens state after ∧ mode.gives value :=
  added_before twins within run

/-! ## What stands at the place -/

namespace Tied

variable (tied : x.Tied state there)

include tied

theorem linked : (x.before x.behind.names x.fixed).Linked state there := tied _ x.fixed

theorem pos : there.pos = state.pos := tied.linked.pos

theorem tokens : there.tokens = x.behind.other := tied.linked.tokens

omit tied in
/-- A token before the place is shown. -/
theorem shown {index : Nat} (before : index < x.start) :
    (x.before x.behind.names x.fixed).Shown index :=
  .inr before

theorem seesAt {index : Nat} (before : state.pos + index < x.start) (symbol : String) :
    there.seesAt (there.pos + index) symbol = state.seesAt (state.pos + index) symbol :=
  (shown before).seesAt tied.linked symbol

theorem sees (before : state.pos < x.start) (symbol : String) :
    there.sees symbol = state.sees symbol :=
  @Tied.seesAt _ _ _ tied 0 before symbol

theorem lt_last (before : state.pos < x.start) (more : state.current.kind ≠ .eof) :
    there.pos < there.tokens.last := by
  have further := (shown before).lt_last tied.linked more
  rw [tied.tokens]
  exact further

theorem seesAt_start {index : Nat} (here : state.pos + index = x.start) {symbol : String}
    (other : symbol ≠ "(") : there.seesAt (there.pos + index) symbol = false := by
  unfold State.seesAt State.token
  rw [tied.pos, here, tied.tokens]
  exact Token.isSymbol_eq_false x.opened fun same => other same.symm

theorem seesAt_second {index : Nat} (here : state.pos + index = x.start + 1)
    {symbol : String} (other : symbol ≠ "(") (also : symbol ≠ "*") :
    there.seesAt (there.pos + index) symbol = false := by
  unfold State.seesAt State.token
  rw [tied.pos, here, tied.tokens]
  rcases x.second with second | second
  · exact Token.isSymbol_eq_false second fun same => other same.symm
  · exact Token.isSymbol_eq_false second fun same => also same.symm

/-- What does not stand at the cursor does not stand there in the other stream, but for an
opening parenthesis. -/
theorem sees_other (ahead : x.Ahead state) {symbol : String}
    (other : state.sees symbol = false)
    (closed : symbol ≠ "(") : there.sees symbol = false := by
  rcases Nat.lt_or_eq_of_le ahead.pos with before | here
  · exact (tied.sees before symbol).trans other
  · exact @Tied.seesAt_start _ _ _ tied 0 here _ closed

/-- The same of the token behind the cursor. -/
theorem seesAt_other (ahead : x.Ahead state) {symbol : String}
    (other : state.seesAt (state.pos + 1) symbol = false) (closed : symbol ≠ "(")
    (also : symbol ≠ "*") : there.seesAt (there.pos + 1) symbol = false := by
  have := ahead.pos
  by_cases before : state.pos + 1 < x.start
  · exact (tied.seesAt before symbol).trans other
  · by_cases here : state.pos + 1 = x.start
    · exact tied.seesAt_start here closed
    · exact tied.seesAt_second (by omega) closed also

theorem isIdentifier_start {index : Nat} (here : state.pos + index = x.start) :
    (there.token (there.pos + index)).isIdentifier = false := by
  unfold State.token
  rw [tied.pos, here, tied.tokens]
  exact Token.isIdentifier_eq_false x.opened

theorem startsType_second {index : Nat} (here : state.pos + index = x.start + 1) :
    there.startsType (there.pos + index) = false := by
  have nameless : (there.token (there.pos + index)).isIdentifier = false := by
    unfold State.token
    rw [tied.pos, here, tied.tokens]
    rcases x.second with second | second <;> exact Token.isIdentifier_eq_false second
  simp [State.startsType, State.typedefAt?, State.typeKeywords, nameless,
    tied.seesAt_second here]

/-- Where no type begins, none begins in the other stream. -/
theorem startsType_other (ahead : x.Ahead state) {index : Nat} (close : index ≤ 1)
    (other : state.startsType (state.pos + index) = false) :
    there.startsType (there.pos + index) = false := by
  have := ahead.pos
  by_cases before : state.pos + index < x.start
  · exact ((shown before).startsType tied.linked).trans other
  · by_cases here : state.pos + index = x.start
    · have nameless := tied.isIdentifier_start here
      simp [State.startsType, State.typedefAt?, State.typeKeywords, nameless,
        tied.seesAt_start here]
    · exact tied.startsType_second (by omega)

/-- Where no type stands in parentheses, none does in the other stream. -/
theorem untyped_other (ahead : x.Ahead state)
    (other : (state.sees "(" && state.startsType (state.pos + 1)) = false) :
    (there.sees "(" && there.startsType (there.pos + 1)) = false := by
  rcases Nat.lt_or_eq_of_le ahead.pos with before | here
  · rcases Bool.and_eq_false_iff.mp other with closed | typeless
    · rw [tied.sees before, closed, Bool.false_and]
    · rw [tied.startsType_other ahead (Nat.le_refl 1) typeless, Bool.and_false]
  · rw [tied.startsType_second (congrArg (· + 1) here), Bool.and_false]

theorem startsLabel_other (ahead : x.Ahead state) (other : state.startsLabel = false) :
    there.startsLabel = false := by
  have := ahead.pos
  by_cases before : state.pos + 1 < x.start
  · exact (Window.Shown.startsLabel tied.linked (shown before)).trans other
  · unfold State.startsLabel
    by_cases here : state.pos + 1 = x.start
    · rw [tied.seesAt_start here (by decide), Bool.and_false]
    · have nameless : there.current.isIdentifier = false :=
        @Tied.isIdentifier_start _ _ _ tied 0 (by omega)
      rw [nameless, Bool.false_and]

theorem isEof_other (ahead : x.Ahead state) (other : state.current.isEof = false) :
    there.current.isEof = false := by
  rcases Nat.lt_or_eq_of_le ahead.pos with before | here
  · unfold Token.isEof at other ⊢
    rw [(shown before).kind tied.linked]
    exact other
  · have opened : (there.token there.pos).isSymbol "(" = true := by
      unfold State.token
      rw [tied.pos, here, tied.tokens]
      exact x.opened
    have more := kind_ne_eof_of_isSymbol opened
    unfold Token.isEof State.current
    cases kind : (there.token there.pos).kind <;> simp_all

end Tied

/-! ## Crossing the place -/

/-- From a state before the place a parser ends as another parser does in the other
stream. -/
structure Crosses [Carried α] (x : Crossing) (ready : Prop) (state : State)
    (parser beside : Parser α) : Prop where
  ahead : state.Within x.behind.tokens -> x.Ahead state
  ends : ready -> ∀ there, x.Tied state there ->
    x.behind.Ends (parser state) (beside there)

end Crossing

/-! ### Ends -/

theorem Crossing.level (x : Crossing) {tok : Nat} (before : tok ≤ x.start) (low : Nat) :
    x.behind.Level low tok tok :=
  fun _ => x.lines tok before


namespace Window.Ends

variable [Carried α] [Carried β] {w : Window} {state there : State}
    {parser beside : Parser α} {rest behind : α -> Parser β}

/-- The other run gives up. -/
theorem of_endless {result other : EStateM.Result Error State α} {last : State}
    (gaveUp : other = .error (.fault .endless) last) : w.Ends result other :=
  ⟨fun _ _ _ => .inl ⟨last, gaveUp⟩, fun _ _ _ _ _ => ⟨_, last, gaveUp⟩⟩

theorem of_twins {calm : Prop} {mode : Mode α} (whole : w.whole)
    (twins : TwinsAt w calm state there mode parser beside)
    (linked : w.Linked state there) :
    w.Ends (parser state) (beside there) :=
  ⟨fun value after run => twins.agrees linked value after run (.inl whole),
    fun whole error after run => twins.fails linked whole error after run⟩

/-- A run that ends alike goes on alike. -/
theorem bind (first : w.Ends (parser state) (beside there))
    (second : ∀ value after reached, parser state = .ok value after ->
      w.Linked after reached ->
      w.Ends (rest value after) (behind (carry w.names value) reached)) :
    w.Ends ((parser >>= rest) state) ((beside >>= behind) there) := by
  cases run : parser state with
  | ok value after =>
      rw [bind_run run]
      rcases first.ok value after run with ⟨last, gaveUp⟩ | ⟨reached, alsoRun, linked⟩
      · exact .of_endless (bind_fail gaveUp)
      · rw [bind_run alsoRun]
        exact second value after reached run linked
  | error error after =>
      rw [bind_fail run]
      refine ⟨fun _ _ never => (by cases never), fun whole => ?_⟩
      rintro _ _ ⟨⟩ differs
      obtain ⟨also, last, failed⟩ := first.error whole error after run differs
      exact ⟨also, last, bind_fail failed⟩

end Window.Ends

namespace Crossing

variable {x : Crossing} {state middle : State}

/-- The state behind a token before the place. -/
theorem Tied.next {there : State} (tied : x.Tied state there)
    (before : state.pos < x.start)
    (more : state.current.kind ≠ .eof) : x.Tied state.next there.next :=
  fun names fixes => (tied names fixes).next (.inr before) more

namespace Crosses

variable [Carried α] [Carried β] {ready also : Prop}
    {parser beside other otherBeside : Parser α} {rest onward : α -> Parser β}

theorem mono (crosses : x.Crosses also state parser beside) (weaker : ready -> also) :
    x.Crosses ready state parser beside :=
  ⟨crosses.ahead, fun holds => crosses.ends (weaker holds)⟩

theorem of_within
    (crosses : state.Within x.behind.tokens -> x.Crosses ready state parser beside) :
    x.Crosses ready state parser beside :=
  ⟨fun within => (crosses within).ahead within,
    fun holds there tied => (crosses tied.linked.within).ends holds there tied⟩

/-- Parsers that run as others. -/
theorem swap (crosses : x.Crosses ready state other otherBeside)
    (own : parser state = other state)
    (same : ready -> x.Ahead state -> ∀ there, x.Tied state there ->
      beside there = otherBeside there) : x.Crosses ready state parser beside where
  ahead := crosses.ahead
  ends := fun holds there tied => by
    rw [own, same holds (crosses.ahead tied.linked.within) there tied]
    exact crosses.ends holds there tied

/-- Parsers that run as others behind the token at the cursor. -/
theorem next (more : state.current.kind ≠ .eof)
    (crosses : x.Crosses ready state.next other otherBeside)
    (own : state.Within x.behind.tokens -> parser state = other state.next)
    (same : ready -> x.Ahead state -> state.pos < x.start -> ∀ there,
      x.Tied state there ->
      beside there = otherBeside there.next) : x.Crosses ready state parser beside := by
  have ahead (within : state.Within x.behind.tokens) : x.Ahead state.next :=
    crosses.ahead (Window.within_next (w := x.behind) within more)
  have here (within : state.Within x.behind.tokens) : x.Ahead state :=
    ⟨within, Nat.le_of_succ_le (ahead within).pos, (ahead within).types,
      (ahead within).nodes⟩
  refine ⟨here, fun holds there tied => ?_⟩
  have within := tied.linked.within
  have before : state.pos < x.start := (ahead within).pos
  rw [own within, same holds (here within) before there tied]
  exact crosses.ends holds _ (tied.next before more)

/-- The cursor is before the place if the token there is passed first. -/
theorem before (crosses : x.Crosses ready state.next parser beside)
    (more : state.current.kind ≠ .eof) (within : state.Within x.behind.tokens) :
    state.pos < x.start :=
  (crosses.ahead (Window.within_next (w := x.behind) within more)).pos

/-! ### One parser behind another -/

/-- A parser that ends before the place, in front of one that crosses it.  What it gives
is used in the other stream as renamed behind the place. -/
theorem behind_at {mild : Prop} {mode : Mode α} (family : Renaming -> Parser α)
    (one : ∀ names (fixes : x.Fixes names),
      Twins (x.before names fixes) mild 0 mode parser (family names))
    (settled : ready -> ∀ names, x.Fixes names -> family names = family x.behind.names)
    {value : α} (run : parser state = .ok value middle)
    (near : middle.Within x.behind.tokens ->
      middle.pos < x.start ∨ mode.inside value ∨ mild)
    (second : x.Crosses (ready ∧ x.Settles value) middle (rest value)
      (onward (carry x.behind.names value))) :
    x.Crosses ready state (parser >>= rest) (family x.behind.names >>= onward) := by
  have added (within : state.Within x.behind.tokens) :
      Added x.behind.tokens state middle :=
    (added_before (one _ x.fixed) within run).1
  refine ⟨fun within => (second.ahead (added within).within).of_added within
    (added within), fun holds there tied => ?_⟩
  have within := tied.linked.within
  have ahead := second.ahead (added within).within
  have arrives (names : Renaming) (fixes : x.Fixes names) :
      (x.before names fixes).Arrives value middle (family x.behind.names there) := by
    rw [← settled holds names fixes]
    have twins := one names fixes (Nat.le_refl 0) state there within (Nat.zero_le _)
    refine twins.agrees (tied names fixes) value middle run (.inr ?_)
    refine ⟨?_, ahead.types, ahead.nodes⟩
    rcases near ahead.within with further | why
    · exact .inl further
    · exact (Nat.lt_or_eq_of_le ahead.pos).imp_right fun same => ⟨same, why⟩
  rcases arrives _ x.fixed with ⟨last, gaveUp⟩ | ⟨reached, ran, -⟩
  · exact .of_endless (bind_fail gaveUp)
  · have linked (names : Renaming) (fixes : x.Fixes names) :
        carry names value = carry x.behind.names value ∧
          (x.before names fixes).Linked middle reached := by
      rcases arrives names fixes with ⟨last, gaveUp⟩ | ⟨other, also, linked⟩
      · cases ran.symm.trans gaveUp
      · injection ran.symm.trans also with same landed
        subst landed
        exact ⟨same.symm, linked⟩
    rw [bind_run run, bind_run ran]
    exact second.ends ⟨holds, fun names fixes => (linked names fixes).1⟩ reached
      fun names fixes => (linked names fixes).2

/-- A parser that ends before the place, in front of one that crosses it. -/
theorem behind {mild : Prop} {mode : Mode α}
    (one : ∀ names (fixes : x.Fixes names),
      Twins (x.before names fixes) mild 0 mode parser beside)
    {value : α} (run : parser state = .ok value middle)
    (near : middle.Within x.behind.tokens ->
      middle.pos < x.start ∨ mode.inside value ∨ mild)
    (second : x.Crosses (ready ∧ x.Settles value) middle (rest value)
      (onward (carry x.behind.names value))) :
    x.Crosses ready state (parser >>= rest) (beside >>= onward) :=
  .behind_at (fun _ => beside) one (fun _ _ _ => rfl) run near second

/-- A parser that stays inside, in front of one that crosses the place. -/
theorem behind_inside {mode : Mode α}
    (one : ∀ names (fixes : x.Fixes names),
      Twins (x.before names fixes) False 0 mode parser beside)
    {value : α} (run : parser state = .ok value middle) (inside : mode.inside value)
    (second : x.Crosses (ready ∧ x.Settles value) middle (rest value)
      (onward (carry x.behind.names value))) :
    x.Crosses ready state (parser >>= rest) (beside >>= onward) :=
  .behind one run (fun _ => .inr (.inl inside)) second

/-- A parser that looks at no token, in front of one that crosses the place. -/
theorem blind (family : Renaming -> Parser α)
    (one : ∀ names (fixes : x.Fixes names),
      Twins (x.before names fixes) False 0 .blind parser (family names))
    (settled : ready -> ∀ names, x.Fixes names -> family names = family x.behind.names)
    {value : α} (run : parser state = .ok value middle)
    (second : x.Crosses (ready ∧ x.Settles value) middle (rest value)
      (onward (carry x.behind.names value))) :
    x.Crosses ready state (parser >>= rest) (family x.behind.names >>= onward) :=
  .behind_at family one settled run (fun _ => .inr (.inl trivial)) second

/-- A parser that crosses the place, in front of one that goes on behind it. -/
theorem first (crosses : x.Crosses ready state parser beside)
    (second : ready -> ∀ value after reached, x.behind.Linked after reached ->
      x.behind.Ends (rest value after) (onward (carry x.behind.names value) reached)) :
    x.Crosses ready state (parser >>= rest) (beside >>= onward) :=
  ⟨crosses.ahead, fun holds there tied => (crosses.ends holds there tied).bind
    fun value after reached _ => second holds value after reached⟩

/-- A parser that crosses the place, in front of one that is followed behind it. -/
theorem lead (crosses : x.Crosses ready state parser beside) (mode : Mode β)
    (second : ready -> ∀ value, Twins x.behind False x.behind.low mode (rest value)
      (onward (carry x.behind.names value))) :
    x.Crosses ready state (parser >>= rest) (beside >>= onward) :=
  crosses.first fun holds value after reached linked => .of_twins x.whole
    (second holds value (Nat.le_refl _) after reached linked.within linked.reached) linked

/-! ### The cursor -/

section

variable {symbol : String} {yes no besideYes besideNo : Parser α}

theorem accept_yes (here : state.sees symbol = true)
    (crosses : x.Crosses ready state.next yes besideYes) :
    x.Crosses ready state (do if ← accept symbol then yes else no)
      (do if ← accept symbol then besideYes else besideNo) :=
  crosses.next (kind_ne_eof_of_isSymbol here) (fun _ => accept_then here)
    fun _ _ before _ tied => accept_then ((tied.sees before symbol).trans here)

theorem accept_no (other : state.sees symbol = false) (closed : symbol ≠ "(")
    (crosses : x.Crosses ready state no besideNo) :
    x.Crosses ready state (do if ← accept symbol then yes else no)
      (do if ← accept symbol then besideYes else besideNo) :=
  crosses.swap (accept_else other) fun _ ahead _ tied =>
    accept_else (tied.sees_other ahead other closed)

theorem expect (here : state.sees symbol = true) {onward otherOnward : Unit -> Parser α}
    (crosses : x.Crosses ready state.next (onward ()) (otherOnward ())) :
    x.Crosses ready state (Grammar.expect symbol >>= onward)
      (Grammar.expect symbol >>= otherOnward) :=
  crosses.next (kind_ne_eof_of_isSymbol here) (fun _ => bind_run (expect_run here))
    fun _ _ before _ tied =>
    bind_run (expect_run ((tied.sees before symbol).trans here))

end

/-- The place of the token at the cursor is kept.  It is not behind the place. -/
theorem position {rest onward : Nat -> Parser α}
    (crosses : x.Crosses (ready ∧ state.pos ≤ x.start) state (rest state.pos)
      (onward state.pos)) :
    x.Crosses ready state (position >>= rest) (position >>= onward) := by
  refine ⟨crosses.ahead, fun holds there tied => ?_⟩
  rw [position_run, position_run, tied.pos]
  exact crosses.ends ⟨holds, (crosses.ahead tied.linked.within).pos⟩ there tied

/-- A choice that depends on the state. -/
theorem get_bind {rest onward : State -> Parser α}
    (crosses : x.Crosses ready state other otherBeside)
    (own : rest state = other)
    (same : ready -> x.Ahead state -> ∀ there, x.Tied state there ->
      onward there = otherBeside) :
    x.Crosses ready state (get >>= rest) (get >>= onward) :=
  crosses.swap (congrFun own state) fun holds ahead there tied =>
    congrFun (same holds ahead there tied) there

/-- The recursion goes on, or has come to its end in the other stream. -/
theorem gives_up (crosses : x.Crosses ready state parser other) :
    x.Crosses ready state parser (MonadExcept.throw (.fault .endless)) :=
  ⟨crosses.ahead, fun _ there _ => @Window.Ends.of_endless _ _ _ _ _ there rfl⟩

theorem withScope (crosses : x.Crosses ready state.entered parser beside) :
    x.Crosses ready state (withScope parser) (withScope beside) := by
  have entered {state : State} (within : state.Within x.behind.tokens) :
      state.entered.Within x.behind.tokens :=
    ⟨within.same, within.cursor, within.types⟩
  refine ⟨fun within => ?_, fun holds there tied => ?_⟩
  · have ahead := crosses.ahead (entered within)
    exact ⟨within, ahead.pos, ahead.types, ahead.nodes⟩
  · have inner := crosses.ends holds there.entered fun names fixes =>
      let linked := tied names fixes
      ⟨entered linked.within, linked.tokens, linked.cursor, linked.reached, linked.pos,
        congrArg Scopes.enter linked.scopes, linked.function, linked.literals,
          linked.tables,
        fun plain => plain.elim⟩
    cases run : parser state.entered with
    | ok value after =>
        have ended : Grammar.withScope parser state =
            .ok value { after with scopes := after.scopes.leave } := withScope_run run
        rw [ended]
        refine ⟨?_, fun _ _ _ never => by cases never⟩
        rintro _ _ ⟨⟩
        rcases inner.ok value after run with ⟨last, gaveUp⟩ | ⟨reached, ran, linked⟩
        · exact .inl ⟨_, withScope_fail gaveUp⟩
        · exact .inr ⟨_, withScope_run ran,
            ⟨linked.within.same, linked.within.cursor, linked.within.types⟩,
              linked.tokens,
            linked.cursor, linked.reached, linked.pos,
            (congrArg Scopes.leave linked.scopes).trans (Scopes.carry_leave _ _).symm,
            linked.function, linked.literals, linked.tables, fun plain =>
              absurd plain x.braced⟩
    | error error after =>
        have failed : Grammar.withScope parser state =
            .error error { after with scopes := after.scopes.leave } := withScope_fail run
        rw [failed]
        refine ⟨fun _ _ never => (by cases never), fun whole => ?_⟩
        rintro _ _ ⟨⟩ differs
        obtain ⟨also, last, alsoFailed⟩ := inner.error whole error after run differs
        exact ⟨also, _, withScope_fail alsoFailed⟩

/-! ### Loops -/

section

variable [Carried σ] {mild : Prop} {first : Mode (Round σ α)}
    (mode : Mode α) [mode.Settled] {round : σ -> Parser (Round σ α)} {start current : σ}
  (family : Renaming -> σ -> Parser (Round σ α))
  (one : ∀ names (fixes : x.Fixes names) current,
    Twins (x.before names fixes) mild 0 first
    (round current) (family names (carry names current)))
  (later : ∀ current, Twins x.behind False x.behind.low (mode.round fun _ => True)
    (round current) (family x.behind.names (carry x.behind.names current)))

include one

omit [mode.Settled] in
theorem added_of_rounds
    (rounds : Rounds round start state current middle)
    (within : state.Within x.behind.tokens) :
    Added x.behind.tokens state middle := by
  induction rounds with
  | none => exact .refl within
  | more goes others hypothesis =>
      have added := (added_before (one _ x.fixed _) within goes).1
      exact added.trans (hypothesis added.within)

include later

omit one in
/-- A loop whose first round crosses the place. -/
theorem iterateFor_here (crosses : x.Crosses ready state (round start)
      (family x.behind.names (carry x.behind.names start))) (bound more : Nat) :
    x.Crosses ready state (iterateFor round bound start)
      (iterateFor (family x.behind.names) more (carry x.behind.names start)) := by
  cases bound with
  | zero =>
      refine ⟨crosses.ahead,
        fun _ _ _ => ⟨fun _ _ never => (by cases never), fun _ => ?_⟩⟩
      rintro _ _ ⟨⟩ differs
      exact absurd rfl differs
  | succ bound =>
      have goes (more : Nat) : x.Crosses ready state
          (Grammar.iterateFor round (bound + 1) start)
          (Grammar.iterateFor (family x.behind.names) (more + 1)
            (carry x.behind.names start)) := by
        refine crosses.first fun _ value after reached linked => ?_
        cases value with
        | again next =>
            exact .of_twins x.whole (Twins.iterateFor (fun _ => True) (fun current _ =>
              later current) bound more next trivial (Nat.le_refl _) after reached
              linked.within linked.reached) linked
        | done result =>
            refine ⟨?_, fun _ _ _ never => by cases never⟩
            rintro _ _ ⟨⟩
            exact .inr ⟨reached, rfl, linked⟩
      cases more with
      | zero => exact (goes 0).gives_up
      | succ more => exact goes more

/-- A loop with rounds before the place and one that crosses it. -/
theorem iterateFor (rounds : Rounds round start state current middle)
    (settled : ready -> ∀ names, x.Fixes names -> family names = family x.behind.names)
    (begins : ready -> x.Settles start)
    (near : middle.Within x.behind.tokens -> middle.pos < x.start ∨ mild)
    (crosses : x.Crosses (ready ∧ x.Settles current) middle (round current)
      (family x.behind.names (carry x.behind.names current))) (bound more : Nat) :
    x.Crosses ready state (iterateFor round bound start)
      (iterateFor (family x.behind.names) more (carry x.behind.names start)) := by
  induction rounds generalizing ready bound more with
  | none current state =>
      exact iterateFor_here mode family later
        (crosses.mono fun holds => ⟨holds, begins holds⟩) bound more
  | @more current next last state middle after goes others hypothesis =>
      have inner (bound more : Nat) :
          x.Crosses (ready ∧ x.Settles (Round.again (α := α) next)) middle
          (Grammar.iterateFor round bound next)
          (Grammar.iterateFor (family x.behind.names) more (carry x.behind.names next)) :=
        hypothesis (fun holds => settled holds.1)
          (fun holds names fixes => Round.again.inj (holds.2 names fixes)) near
          (crosses.mono fun holds => ⟨holds.1.1, holds.2⟩) bound more
      have goes (bound more : Nat) : x.Crosses ready state
          (Grammar.iterateFor round (bound + 1) current)
          (Grammar.iterateFor (family x.behind.names) (more + 1)
            (carry x.behind.names current)) := by
        have round names (fixes : x.Fixes names) := one names fixes current
        refine .behind_at (fun names => family names (carry names current)) round
          (fun holds names fixes => by
            rw [settled holds names fixes, begins holds names fixes])
          goes (fun within => ?_) (inner bound more)
        have added := added_of_rounds family one others within
        exact (near added.within).imp (Nat.lt_of_le_of_lt added.forward) .inr
      cases bound with
      | zero =>
          refine ⟨(goes 0 0).ahead, fun _ _ _ =>
            ⟨fun _ _ never => (by cases never), fun _ => ?_⟩⟩
          rintro _ _ ⟨⟩ differs
          exact absurd rfl differs
      | succ bound =>
          cases more with
          | zero => exact (goes bound 0).gives_up
          | succ more => exact goes bound more

/-- A loop, from its beginning on. -/
theorem iterate (rounds : Rounds round start state current middle)
    (settled : ready -> ∀ names, x.Fixes names -> family names = family x.behind.names)
    (begins : ready -> x.Settles start)
    (near : (start = current ∧ state = middle) ∨
      (middle.Within x.behind.tokens -> middle.pos < x.start ∨ mild))
    (crosses : x.Crosses (ready ∧ x.Settles current) middle (round current)
      (family x.behind.names (carry x.behind.names current))) :
    x.Crosses ready state (iterate start round)
      (iterate (carry x.behind.names start) (family x.behind.names)) := by
  have goes (bound more : Nat) : x.Crosses ready state
      (Grammar.iterateFor round bound start)
      (Grammar.iterateFor (family x.behind.names) more (carry x.behind.names start)) := by
    rcases near with ⟨rfl, rfl⟩ | near
    · exact iterateFor_here mode family later
        (crosses.mono fun holds => ⟨holds, begins holds⟩) bound more
    · exact iterateFor mode family one later rounds settled begins near crosses bound more
  refine ⟨(goes 0 0).ahead, fun holds there tied => ?_⟩
  rw [iterate_run, iterate_run]
  exact (goes _ _).ends holds there tied

end

end Crosses
end Crossing

end Grammar
end MiniC
