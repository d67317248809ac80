import MiniC.Proofs.Grammar.Beside.Files
import MiniC.Proofs.Program.Renaming

/-!
# Reading a stretch of tokens at another place

A window shows a stretch of a stream of tokens at another place in another stream.
`Twins` says that what a parser makes of the stretch a parser makes of it at the other
place too, under other references to types and nodes.  The rest of the streams may differ,
so that care is needed where the stretch ends: a run that has looked at the token behind
the stretch is only followed if the window is whole, which means that it reaches to the
ends of both streams, or if it is calm.  A calm window closes at the other place with a
parenthesis, which ends every expression.

In a plain window there are neither braces nor string literals.  A parser of expressions
leaves alone there whatever is neither type nor node.

How deep the productions may recur at the other place is left open.  Where they may not
recur deep enough, they give up with the fault `endless`, and nothing is said of them
then.
-/

namespace MiniC

/-! ## Scopes under other references -/

namespace Scopes

variable (names : Renaming) (scopes : Scopes)

theorem carry_leave : carry names scopes.leave = (carry names scopes).leave := by
  obtain ⟨file, blocks⟩ := scopes
  cases blocks <;> rfl

theorem carry_declareVariable (name : String) (binding : Binding) :
    carry names (scopes.declareVariable name binding) =
      (carry names scopes).declareVariable name (carry names binding) := by
  obtain ⟨file, blocks⟩ := scopes
  cases blocks <;> rfl

theorem carry_declareTag (name : String) (ty : TyId) :
    carry names (scopes.declareTag name ty) =
      (carry names scopes).declareTag name (carry names ty) := by
  obtain ⟨file, blocks⟩ := scopes
  cases blocks <;> rfl

theorem carry_frames : (carry names scopes).frames = scopes.frames.map (carry names) := by
  obtain ⟨file, blocks⟩ := scopes
  simp only [frames, List.map_append, List.map_singleton]
  rfl

theorem lookup_carry {α : Type} [Carried α] (list : List (String × α)) (name : String) :
    (carry names list).lookup name = (list.lookup name).map (carry names) := by
  induction list with
  | nil => rfl
  | cons entry rest hypothesis =>
      obtain ⟨key, value⟩ := entry
      change List.lookup name ((key, carry names value) :: carry names rest) = _
      rw [List.lookup_cons, List.lookup_cons, hypothesis]
      split <;> rfl

@[simp] theorem lookupVariable?_carry (name : String) :
    (carry names scopes).lookupVariable? name =
      (scopes.lookupVariable? name).map (carry names) := by
  unfold lookupVariable?
  rw [carry_frames, List.findSome?_map]
  induction scopes.frames with
  | nil => rfl
  | cons frame rest hypothesis =>
      rw [List.findSome?_cons, List.findSome?_cons, Function.comp_apply, hypothesis]
      have same : (carry names frame).vars.lookup name =
          (frame.vars.lookup name).map (carry names) := lookup_carry names frame.vars name
      rw [same]
      cases frame.vars.lookup name <;> rfl

@[simp] theorem lookupTag?_carry (name : String) :
    (carry names scopes).lookupTag? name =
    (scopes.lookupTag? name).map (carry names) := by
  unfold lookupTag?
  rw [carry_frames, List.findSome?_map]
  induction scopes.frames with
  | nil => rfl
  | cons frame rest hypothesis =>
      rw [List.findSome?_cons, List.findSome?_cons, Function.comp_apply, hypothesis]
      have same : (carry names frame).tags.lookup name =
          (frame.tags.lookup name).map (carry names) := lookup_carry names frame.tags name
      rw [same]
      cases frame.tags.lookup name <;> rfl

@[simp] theorem typedef?_carry (name : String) :
    (carry names scopes).typedef? name = (scopes.typedef? name).map (carry names) := by
  unfold typedef?
  rw [lookupVariable?_carry]
  cases scopes.lookupVariable? name with
  | none => rfl
  | some binding => cases binding <;> rfl

end Scopes

namespace Grammar

/-! ## What parsers hold under other references -/

instance : Carried Storage := ⟨fun _ storage => storage⟩

instance : Carried Declarator :=
  ⟨fun names declared =>
    ⟨carry names declared.ty, carry names declared.name, carry names declared.start⟩⟩

instance : Carried Specifiers :=
  ⟨fun names seen => { seen with ty := carry names seen.ty }⟩

instance : Carried FunctionContext :=
  ⟨fun names function =>
    { function with
      result := carry names function.result
      gotos := carry names function.gotos }⟩

/-- The end of a round under other references. -/
def Round.carried {σ α : Type} [Carried σ] [Carried α] (names : Renaming) :
    Round σ α -> Round σ α
  | .again state => .again (carry names state)
  | .done result => .done (carry names result)

instance {σ α : Type} [Carried σ] [Carried α] : Carried (Round σ α) := ⟨Round.carried⟩

/-! ## Windows -/

/-- A state in which nothing but types, nodes and the cursor differ from another. -/
structure State.Rests (anchor state : State) : Prop where
  scopes : state.scopes = anchor.scopes
  symbols : state.program.symbols = anchor.program.symbols
  globals : state.program.globals = anchor.program.globals
  function : state.function = anchor.function
  literals : state.literals = anchor.literals

/-- A stretch of tokens at another place in another stream, and other references for the
types and nodes that are entered while it is read.  If `whole`, the stretch reaches to the
ends of the streams, and whatever is entered has another reference. -/
structure Window where
  tokens : TokenStream
  other : TokenStream
  names : Renaming
  /-- The first token of the stretch, the token behind it, and its place in the other
  stream. -/
  low : Nat
  high : Nat
  base : Nat
  /-- The types that are entered while the stretch is read, and their place in the other
  table. -/
  tyLow : Nat
  tyHigh : Nat
  tyBase : Nat
  /-- The nodes that are entered while the stretch is read, and their place in the other
  table. -/
  nodeLow : Nat
  nodeHigh : Nat
  nodeBase : Nat
  whole : Prop
  plain : Prop
  /-- A state before a plain stretch, and the program at the other place. -/
  anchor : State
  ground : Program
  sound : tokens.Sound
  ended : other.eof.kind = .eof
  alike : ∀ n, whole ∨ low + n < high ->
    (other.get (base + n)).kind = (tokens.get (low + n)).kind ∧
      (other.get (base + n)).text = (tokens.get (low + n)).text
  lines : ¬ plain -> ∀ n, whole ∨ low + n < high ->
    (other.get (base + n)).line = (tokens.get (low + n)).line
  places : ∀ n, whole ∨ low + n < high -> names.token (low + n) = base + n
  spelled : ∀ tok, (tokens.get tok).isIdentifier = true ->
    (other.get (names.token tok)).text = (tokens.get tok).text
  quiet : plain -> ∀ n, low + n < high ->
    (tokens.get (low + n)).isSymbol openBrace = false ∧
      (tokens.get (low + n)).kind.string? = none
  loud : plain -> ¬ whole
  tyFresh : ∀ n, whole ∨ tyLow + n < tyHigh -> names.ty ⟨tyLow + n⟩ = ⟨tyBase + n⟩
  nodeFresh : ∀ n, whole ∨ nodeLow + n < nodeHigh ->
    names.node ⟨nodeLow + n⟩ = ⟨nodeBase + n⟩

namespace Window

variable (w : Window)

/-- Whether a token belongs to the stretch. -/
def Shown (index : Nat) : Prop := w.whole ∨ index < w.high

/-- Whether the stretch is closed by a parenthesis at the other place. -/
def Stops : Prop := (w.other.get (w.base + (w.high - w.low))).isSymbol ")" = true

/-- Whether what stands at a token is known at the other place. -/
def Faces (calm : Prop) (index : Nat) : Prop := w.Shown index ∨ calm ∧ index = w.high

/-- What has been entered in the tables of a program, and in those of the program at the
other place. -/
structure Tables (program other : Program) : Prop where
  renames : program.Renames w.names False other
  primitive : TypeTable.initial.entries.size ≤ program.types.entries.size
  ty_le : w.tyLow ≤ program.types.entries.size
  tySize : other.types.entries.size + w.tyLow = program.types.entries.size + w.tyBase
  node_le : w.nodeLow ≤ program.nodes.size
  nodeSize : other.nodes.size + w.nodeLow = program.nodes.size + w.nodeBase
  kept : w.plain ->
    Heads w.ground.types.entries other.types.entries ∧ Heads w.ground.nodes other.nodes

/-- A state in the stretch, and the state at the other place. -/
structure Linked (state there : State) : Prop where
  within : state.Within w.tokens
  tokens : there.tokens = w.other
  cursor : there.pos ≤ w.other.last
  reached : w.low ≤ state.pos
  pos : there.pos + w.low = state.pos + w.base
  scopes : there.scopes = carry w.names state.scopes
  function : there.function = carry w.names state.function
  literals : there.literals = state.literals
  tables : w.Tables state.program there.program
  rests : w.plain -> w.anchor.Rests state

/-- Whether a run that ends in a state is followed at the other place. -/
def Near {α : Type} (calm : Prop) (mode : Mode α) (value : α) (after : State) : Prop :=
  w.whole ∨
    (after.pos < w.high ∨ after.pos = w.high ∧ (mode.inside value ∨ calm)) ∧
      after.program.types.entries.size ≤ w.tyHigh ∧ after.program.nodes.size ≤ w.nodeHigh

/-- A run at the other place that arrives at the same value, or gives up. -/
def Arrives {α : Type} [Carried α] (value : α) (after : State)
    (result : EStateM.Result Error State α) : Prop :=
  (∃ last, result = .error (.fault .endless) last) ∨
    ∃ reached, result = .ok (carry w.names value) reached ∧ w.Linked after reached

/-- How a run ends at the other place, if one that ends here is followed. -/
structure Ends {α : Type} [Carried α]
    (result other : EStateM.Result Error State α) : Prop where
  ok : ∀ value after, result = .ok value after -> w.Arrives value after other
  error : w.whole -> ∀ error after, result = .error error after ->
    error ≠ .fault .endless -> ∃ also last, other = .error also last

/-- Whether the stretch is closed by a parenthesis at the other place, if the window is
calm. -/
class Closes (calm : Prop) : Prop where
  stops : calm -> w.Stops

instance : w.Closes False := ⟨False.elim⟩

/-- Whether the stretch is followed by an opening parenthesis at the other place, if the
window is mild. -/
class Opens (mild : Prop) : Prop where
  opens : mild -> (w.other.get (w.base + (w.high - w.low))).isSymbol "(" = true

instance : w.Opens False := ⟨False.elim⟩

/-- The places of a token, if the stretch reaches as far as a later one. -/
def Placed (later tok other : Nat) : Prop :=
  w.whole ∨ later ≤ w.high -> other = w.names.token tok ∧
    (¬ w.plain -> (w.other.get other).line = (w.tokens.get tok).line)

/-- Tokens on the same line, if the stretch reaches as far as a later token. -/
def Level (later tok other : Nat) : Prop :=
  w.whole ∨ later ≤ w.high -> (w.other.get other).line = (w.tokens.get tok).line

end Window

variable {w : Window} {calm : Prop} {state there : State} {low index : Nat} {α β σ : Type}

namespace Window

/-! ### Tokens -/

namespace Shown

variable (linked : w.Linked state there)

theorem mono {earlier : Nat} (shown : w.Shown index) (before : earlier ≤ index) :
    w.Shown earlier :=
  shown.imp_right (Nat.lt_of_le_of_lt before)

include linked

theorem alike (shown : w.Shown (state.pos + index)) :
    (there.token (there.pos + index)).kind = (state.token (state.pos + index)).kind ∧
      (there.token (there.pos + index)).text =
      (state.token (state.pos + index)).text := by
  have reached := linked.reached
  have pos := linked.pos
  have own : state.pos + index = w.low + (state.pos + index - w.low) := by omega
  have other : there.pos + index = w.base + (state.pos + index - w.low) := by omega
  unfold State.token
  rw [linked.tokens, linked.within.same, own, other]
  exact w.alike _ (own ▸ shown)

theorem seesAt (shown : w.Shown (state.pos + index)) (symbol : String) :
    there.seesAt (there.pos + index) symbol =
      state.seesAt (state.pos + index) symbol := by
  unfold State.seesAt Token.isSymbol
  rw [(shown.alike linked).1, (shown.alike linked).2]

theorem typedefAt? (shown : w.Shown (state.pos + index)) :
    there.typedefAt? (there.pos + index) =
      carry w.names (state.typedefAt? (state.pos + index)) := by
  unfold State.typedefAt? Token.isIdentifier
  dsimp only
  rw [(shown.alike linked).1, (shown.alike linked).2, linked.scopes,
    Scopes.typedef?_carry]
  split <;> rfl

theorem startsType (shown : w.Shown (state.pos + index)) :
    there.startsType (there.pos + index) = state.startsType (state.pos + index) := by
  have same : there.seesAt (there.pos + index) = state.seesAt (state.pos + index) :=
    funext fun symbol => shown.seesAt linked symbol
  unfold State.startsType
  rw [same, shown.typedefAt? linked]
  cases state.typedefAt? (state.pos + index) <;> rfl

theorem sees (shown : w.Shown state.pos) (symbol : String) :
    there.sees symbol = state.sees symbol :=
  @Shown.seesAt _ _ _ 0 linked shown symbol

theorem kind (shown : w.Shown state.pos) : there.current.kind = state.current.kind :=
  (@Shown.alike _ _ _ 0 linked shown).1

theorem text (shown : w.Shown state.pos) : there.current.text = state.current.text :=
  (@Shown.alike _ _ _ 0 linked shown).2

theorem isIdentifier (shown : w.Shown state.pos) :
    there.current.isIdentifier = state.current.isIdentifier := by
  unfold Token.isIdentifier
  rw [shown.kind linked]

/-- Where the cursor stands at the other place. -/
theorem place (shown : w.Shown state.pos) : w.names.token state.pos = there.pos := by
  have reached := linked.reached
  have pos := linked.pos
  have own : state.pos = w.low + (state.pos - w.low) := by omega
  rw [own, w.places _ (own ▸ shown)]
  omega

theorem lt_last (shown : w.Shown state.pos) (more : state.current.kind ≠ .eof) :
    there.pos < w.other.last :=
  Grammar.lt_last w.ended linked.tokens ((shown.kind linked).symm ▸ more)

end Shown

/-- At the parenthesis that closes a calm window no other symbol stands. -/
theorem Linked.seesAt_stop (linked : w.Linked state there) (stops : w.Stops)
    (here : state.pos + index = w.high) {symbol : String} (other : symbol ≠ ")") :
    there.seesAt (there.pos + index) symbol = false := by
  have reached := linked.reached
  have pos := linked.pos
  have there' : there.pos + index = w.base + (w.high - w.low) := by omega
  unfold State.seesAt State.token
  rw [there', linked.tokens]
  exact Token.isSymbol_eq_false stops fun same => other same.symm

/-- The text of an identifier of the stream. -/
theorem Linked.text (linked : w.Linked state there) {tok : Nat}
    (identifier : (w.tokens.get tok).isIdentifier = true) :
    (there.token (carry w.names tok)).text = (state.token tok).text := by
  unfold State.token
  rw [linked.tokens, linked.within.same]
  exact w.spelled tok identifier

/-- At the parenthesis that follows a mild window no other symbol stands. -/
theorem Linked.seesAt_open {mild : Prop} [opens : w.Opens mild]
    (linked : w.Linked state there)
    (ready : mild) (here : state.pos + index = w.high) {symbol : String}
    (other : symbol ≠ "(") :
    there.seesAt (there.pos + index) symbol = false := by
  have reached := linked.reached
  have pos := linked.pos
  have at_ : there.pos + index = w.base + (w.high - w.low) := by omega
  unfold State.seesAt State.token
  rw [at_, linked.tokens]
  exact Token.isSymbol_eq_false (opens.opens ready) fun same => other same.symm

theorem Linked.startsType_stop (linked : w.Linked state there) (stops : w.Stops)
    (here : state.pos + index = w.high) :
    there.startsType (there.pos + index) = false := by
  have reached := linked.reached
  have pos := linked.pos
  have at_ : there.pos + index = w.base + (w.high - w.low) := by omega
  have close : (there.token (there.pos + index)).isSymbol ")" = true := by
    unfold State.token
    rw [at_, linked.tokens]
    exact stops
  have nameless := Token.isIdentifier_eq_false close
  simp [State.startsType, State.typedefAt?, State.typeKeywords, nameless,
    linked.seesAt_stop stops here]

theorem Linked.isIdentifier_stop (linked : w.Linked state there) (stops : w.Stops)
    (here : state.pos = w.high) : there.current.isIdentifier = false := by
  have reached := linked.reached
  have pos := linked.pos
  have at_ : there.pos = w.base + (w.high - w.low) := by omega
  unfold State.current State.token
  rw [at_, linked.tokens]
  exact Token.isIdentifier_eq_false stops

namespace Faces

variable [closes : w.Closes calm]

/-- What does not stand at a token does not stand there at the other place, but for a
closing parenthesis. -/
theorem seesAt (faces : w.Faces calm (state.pos + index)) (linked : w.Linked state there)
    {symbol : String} (other : state.seesAt (state.pos + index) symbol = false)
    (open_ : calm -> symbol ≠ ")") : there.seesAt (there.pos + index) symbol = false := by
  rcases faces with shown | ⟨calm, stop⟩
  · rw [shown.seesAt linked, other]
  · exact linked.seesAt_stop (closes.stops calm) stop (open_ calm)

theorem sees (faces : w.Faces calm state.pos) (linked : w.Linked state there)
    {symbol : String} (other : state.sees symbol = false) (open_ : calm -> symbol ≠ ")") :
    there.sees symbol = false :=
  @Faces.seesAt _ _ _ _ 0 _ faces linked _ other open_

omit closes in
/-- In a window that is not calm what counts is shown. -/
theorem shown (faces : w.Faces False index) :
    w.Shown index := faces.resolve_right fun ⟨never, _⟩ => never

theorem startsType (faces : w.Faces calm (state.pos + index))
    (linked : w.Linked state there)
    (other : state.startsType (state.pos + index) = false) :
    there.startsType (there.pos + index) = false := by
  rcases faces with shown | ⟨calm, stop⟩
  · rw [shown.startsType linked, other]
  · exact linked.startsType_stop (closes.stops calm) stop

end Faces

/-! ### Places -/

namespace Placed

variable {later tok other : Nat}

/-- A token of the stretch. -/
theorem self (within : w.low ≤ tok) (before : tok < later) :
    w.Placed later tok (w.names.token tok) := by
  intro reaches
  have shown : w.whole ∨ w.low + (tok - w.low) < w.high := reaches.imp_right (by omega)
  have own : tok = w.low + (tok - w.low) := by omega
  refine ⟨rfl, fun braced => ?_⟩
  rw [own, w.places _ shown, w.lines braced _ shown]

/-- The token at the cursor. -/
theorem cursor (linked : w.Linked state there) (before : state.pos < later) :
    w.Placed later state.pos there.pos := by
  intro reaches
  have shown : w.Shown state.pos := reaches.imp_right (Nat.lt_of_lt_of_le before)
  rw [← shown.place linked]
  exact Placed.self linked.reached before reaches

theorem level (placed : w.Placed later tok other) (braced : ¬ w.plain) :
    w.Level later tok other :=
  fun reaches => (placed reaches).2 braced

end Placed

theorem Level.mono {earlier later tok other : Nat} (level : w.Level earlier tok other)
    (before : earlier ≤ later) : w.Level later tok other :=
  fun reaches => level (reaches.imp_right (Nat.le_trans before))

/-! ### Moving on -/

/-- The state behind a token. -/
theorem within_next (within : state.Within w.tokens) (more : state.current.kind ≠ .eof) :
    state.next.Within w.tokens :=
  ⟨within.same, Grammar.lt_last w.sound.ended within.same more, within.types⟩

/-- The states behind a token of the stretch. -/
theorem Linked.next (linked : w.Linked state there) (shown : w.Shown state.pos)
    (more : state.current.kind ≠ .eof) : w.Linked state.next there.next where
  within := within_next linked.within more
  tokens := linked.tokens
  cursor := shown.lt_last linked more
  reached := Nat.le_succ_of_le linked.reached
  pos := by
    have := linked.pos
    simp only [State.next_pos]
    omega
  scopes := linked.scopes
  function := linked.function
  literals := linked.literals
  tables := linked.tables
  rests := fun plain =>
    let rests := linked.rests plain
    ⟨rests.scopes, rests.symbols, rests.globals, rests.function, rests.literals⟩

/-! ### Tables -/

/-- In a whole window what is missing is missing at the other place. -/
theorem Tables.exact {program other : Program} (tables : w.Tables program other) :
    program.Renames w.names w.whole other where
  types :=
    { found := tables.renames.types.found
      missing := by
        intro whole id missing
        have beyond : program.types.entries.size ≤ id.index :=
          Array.getElem?_eq_none_iff.mp missing
        have := tables.ty_le
        have := tables.tySize
        have renamed := w.tyFresh (id.index - w.tyLow) (.inl whole)
        rw [show w.tyLow + (id.index - w.tyLow) = id.index by omega] at renamed
        change other.types.entries[(w.names.ty id).index]? = none
        rw [show w.names.ty id = _ from renamed]
        exact Array.getElem?_eq_none_iff.mpr (by change _ ≤ w.tyBase + _; omega) }
  found := tables.renames.found
  missing := by
    intro whole id missing
    have beyond : program.nodes.size ≤ id.index := Array.getElem?_eq_none_iff.mp missing
    have := tables.node_le
    have := tables.nodeSize
    have renamed := w.nodeFresh (id.index - w.nodeLow) (.inl whole)
    rw [show w.nodeLow + (id.index - w.nodeLow) = id.index by omega] at renamed
    change other.nodes[(w.names.node id).index]? = none
    rw [show w.names.node id = _ from renamed]
    exact Array.getElem?_eq_none_iff.mpr (by change _ ≤ w.nodeBase + _; omega)
  symbols := tables.renames.symbols
  globals := tables.renames.globals

end Window

/-! ## Twins -/

/-- From a state a parser is followed by the parser that starts from another one. -/
structure TwinsAt {α : Type} [Carried α] (w : Window) (calm : Prop) (state there : State)
    (mode : Mode α) (parser beside : Parser α) : Prop where
  own : FollowsAt (.self w.sound) state mode parser parser
  agrees : w.Linked state there -> ∀ value after, parser state = .ok value after ->
    w.Near calm mode value after -> w.Arrives value after (beside there)
  fails : w.Linked state there -> w.whole -> ∀ error after,
    parser state = .error error after ->
    error ≠ .fault .endless -> ∃ also last, beside there = .error also last

/-- A parser is followed from every state that has come as far as a given index. -/
def Twins {α : Type} [Carried α] (w : Window) (calm : Prop) (low : Nat) (mode : Mode α)
    (parser beside : Parser α) : Prop :=
  w.low ≤ low -> ∀ state there, state.Within w.tokens -> low ≤ state.pos ->
    TwinsAt w calm state there mode parser beside

theorem Comparison.view_self {tokens : TokenStream} (sound : tokens.Sound)
    (own : state.tokens = tokens) : (Comparison.self sound).view state = state := by
  unfold Comparison.view
  rw [show (Comparison.self sound).place = id from rfl, Program.relocate_id]
  subst own
  rfl

/-- A parser beside itself. -/
theorem FollowsAt.self {tokens : TokenStream} {sound : tokens.Sound} {mode : Mode α}
    {parser : Parser α}
    (within : state.Within tokens)
    (added : ∀ value after, parser state = .ok value after -> Added tokens state after)
    (gives : ∀ value after, parser state = .ok value after -> mode.gives value)
    (passes : ∀ value after, parser state = .ok value after -> mode.passes value ->
      state.pos < after.pos) :
    FollowsAt (.self sound) state mode parser parser where
  added := added
  gives := gives
  passes := passes
  agrees := fun value after run _ => by
    rw [Comparison.view_self sound within.same, run,
      Comparison.view_self sound (added value after run).within.same]
  fails := fun _ error after run => by
    refine ⟨after, ?_⟩
    rw [Comparison.view_self sound within.same, run]
    cases error <;> rfl

namespace TwinsAt

section

variable [Carried α] [Carried β] {mode weak first : Mode α} {joint : Mode β}
  {second : α -> Mode β} {parser beside : Parser α} {rest behind : α -> Parser β}

theorem weaken (twins : TwinsAt w calm state there mode parser beside)
    (weaker : weak.Weaker mode) : TwinsAt w calm state there weak parser beside where
  own := twins.own.weaken weaker
  agrees := fun linked value after run near =>
    twins.agrees linked value after run <| near.imp_right fun ⟨at_, room⟩ =>
      ⟨at_.imp_right fun ⟨same, why⟩ => ⟨same, why.imp_left (weaker.inside value)⟩, room⟩
  fails := twins.fails

/-- A parser that looks at no token but those it passes may be used in calm windows. -/
theorem calmed (twins : TwinsAt w False state there mode parser beside)
    (inside : ∀ value, mode.inside value) :
    TwinsAt w calm state there mode parser beside where
  own := twins.own
  agrees := fun linked value after run near =>
    twins.agrees linked value after run <| near.imp_right fun ⟨at_, room⟩ =>
      ⟨at_.imp_right fun ⟨same, _⟩ => ⟨same, .inl (inside value)⟩, room⟩
  fails := twins.fails

/-- A parser that fails in the same way. -/
theorem of_error {error : Error} {after : State}
    (within : state.Within w.tokens)
    (failed : parser state = .error error after)
    (alike : w.Linked state there -> w.whole -> error ≠ .fault .endless ->
      ∃ also last, beside there = .error also last) :
    TwinsAt w calm state there mode parser beside where
  own := .self within (fun _ _ run => by cases failed.symm.trans run)
    (fun _ _ run => by cases failed.symm.trans run) fun _ _ run => by
      cases failed.symm.trans run
  agrees := fun _ _ _ run => by cases failed.symm.trans run
  fails := fun linked whole _ _ run differs => by
    cases failed.symm.trans run
    exact alike linked whole differs

/-- A parser whose run is known, and so is that from the other state. -/
theorem of_ok {value : α} {after : State}
    (within : state.Within w.tokens)
    (run : parser state = .ok value after)
    (added : Added w.tokens state after)
    (gives : mode.gives value)
    (passes : mode.passes value -> state.pos < after.pos)
    (agrees : w.Linked state there -> w.Near calm mode value after ->
      w.Arrives value after (beside there)) :
    TwinsAt w calm state there mode parser beside where
  own := .self within
    (fun _ _ same => by cases run.symm.trans same; exact added)
    (fun _ _ same => by cases run.symm.trans same; exact gives)
    fun _ _ same => by cases run.symm.trans same; exact passes
  agrees := by
    intro linked other reached same
    cases run.symm.trans same
    exact agrees linked
  fails := by
    intro _ _ error reached same
    cases run.symm.trans same

/-- The parser may run differently from the other state, if only where it is not followed.
-/
theorem swap {other : Parser α} (twins : TwinsAt w calm state there mode parser beside)
    (same : w.Linked state there -> (w.whole ∨ ∃ value after,
      parser state = .ok value after ∧ w.Near calm mode value after) ->
        other there = beside there) :
    TwinsAt w calm state there mode parser other where
  own := twins.own
  agrees := by
    intro linked value after run near
    rw [same linked (.inr ⟨value, after, run, near⟩)]
    exact twins.agrees linked value after run near
  fails := by
    intro linked whole error after run
    rw [same linked (.inl whole)]
    exact twins.fails linked whole error after run

/-- Only the run from the state counts. -/
theorem congr {other : Parser α} (within : state.Within w.tokens)
    (sameRun : parser state = other state)
    (twins : TwinsAt w calm state there mode other beside) :
    TwinsAt w calm state there mode parser beside where
  own := .self within (fun value after run => twins.own.added value after (sameRun ▸ run))
    (fun value after run => twins.own.gives value after (sameRun ▸ run))
    fun value after run => twins.own.passes value after (sameRun ▸ run)
  agrees := fun linked value after run =>
    twins.agrees linked value after (sameRun ▸ run)
  fails := fun linked whole error after run =>
    twins.fails linked whole error after (sameRun ▸ run)

/-- One parser behind another.  In a calm window the first may be followed less far if the
second passes a token. -/
theorem bind_calm {mild : Prop}
    (one : TwinsAt w mild state there first parser beside)
    (other : ∀ value after reached, parser state = .ok value after ->
      Added w.tokens state after -> first.gives value ->
      (first.passes value -> state.pos < after.pos) ->
        TwinsAt w calm after reached (second value) (rest value)
          (behind (carry w.names value)))
    (modes : ∀ value, first.gives value -> first.Behind value (second value) joint)
    (steady : calm -> mild ∨ ∀ value, first.gives value -> first.inside value ∨
      ∀ result, (second value).gives result -> (second value).passes result) :
    TwinsAt w calm state there joint (parser >>= rest) (beside >>= behind) where
  own := one.own.bind (fun value after run added gives passes =>
    (other value after there run added gives passes).own) modes
  agrees := by
    intro linked result after run near
    obtain ⟨value, middle, firstRun, secondRun⟩ := bind_ok run
    have given := one.own.gives value middle firstRun
    have step := fun reached => other value middle reached firstRun
      (one.own.added value middle firstRun) given (one.own.passes value middle firstRun)
    have added := (step there).own.added result after secondRun
    have ends := (step there).own.gives result after secondRun
    have passed := (step there).own.passes result after secondRun
    have forward : middle.pos ≤ after.pos := added.forward
    have types := added.begins.types.size_le
    have nodes := added.begins.nodes.size_le
    have firstNear : w.Near mild first value middle := by
      refine near.imp_right fun ⟨at_, fewTypes, fewNodes⟩ =>
        ⟨?_, Nat.le_trans types fewTypes, Nat.le_trans nodes fewNodes⟩
      rcases at_ with further | ⟨same, inside | calm⟩
      · exact .inl (Nat.lt_of_le_of_lt forward further)
      · rcases ((modes value given).inside result ends
          inside).2 with firstInside | secondPasses
        · exact (Nat.lt_or_eq_of_le (same ▸ forward)).imp_right fun same =>
            ⟨same, .inl firstInside⟩
        · exact .inl (same ▸ passed secondPasses)
      · rcases steady calm with mild | settled
        · exact (Nat.lt_or_eq_of_le (same ▸ forward)).imp_right
            fun same => ⟨same, .inr mild⟩
        · rcases settled value given with firstInside | secondPasses
          · exact (Nat.lt_or_eq_of_le (same ▸ forward)).imp_right fun same =>
              ⟨same, .inl firstInside⟩
          · exact .inl (same ▸ passed (secondPasses result ends))
    have secondNear : w.Near calm (second value) result after :=
      near.imp_right fun ⟨at_, room⟩ => ⟨at_.imp_right fun ⟨same, why⟩ =>
        ⟨same, why.imp_left fun inside =>
          ((modes value given).inside result ends inside).1⟩, room⟩
    rcases one.agrees linked value middle firstRun firstNear with
      ⟨last, gaveUp⟩ | ⟨reached, alsoRun, behindFirst⟩
    · exact .inl ⟨last, bind_fail gaveUp⟩
    · rw [bind_run alsoRun]
      exact (step reached).agrees behindFirst result after secondRun secondNear
  fails := by
    intro linked whole error after run differs
    cases known : parser state with
    | ok value middle =>
        rw [bind_run known] at run
        have given := one.own.gives value middle known
        rcases one.agrees linked value middle known (.inl whole) with
          ⟨last, gaveUp⟩ | ⟨reached, alsoRun, behindFirst⟩
        · exact ⟨_, last, bind_fail gaveUp⟩
        · rw [bind_run alsoRun]
          exact (other value middle reached known (one.own.added value middle known) given
            (one.own.passes value middle known)).fails behindFirst whole error
              after run differs
    | error reason middle =>
        rw [bind_fail known] at run
        cases run
        obtain ⟨also, last, failed⟩ := one.fails linked whole _ _ known differs
        exact ⟨also, last, bind_fail failed⟩

/-- One parser behind another. -/
theorem bind
    (one : TwinsAt w calm state there first parser beside)
    (other : ∀ value after reached, parser state = .ok value after ->
      Added w.tokens state after -> first.gives value ->
      (first.passes value -> state.pos < after.pos) ->
        TwinsAt w calm after reached (second value) (rest value)
          (behind (carry w.names value)))
    (modes : ∀ value, first.gives value -> first.Behind value (second value) joint) :
    TwinsAt w calm state there joint (parser >>= rest) (beside >>= behind) :=
  one.bind_calm other modes .inl

end

variable [Carried α] {mode : Mode α} {parser beside : Parser α}

/-- A parser whose run only counts between states that are linked. -/
theorem of_linked (own : FollowsAt (.self w.sound) state mode parser parser)
    (twins : w.Linked state there -> TwinsAt w calm state there mode parser beside) :
    TwinsAt w calm state there mode parser beside where
  own := own
  agrees := fun linked => (twins linked).agrees linked
  fails := fun linked => (twins linked).fails linked

/-- A parser whose run only counts if the stretch reaches as far as the cursor. -/
theorem of_reaching (own : FollowsAt (.self w.sound) state mode parser parser)
    (reached : low ≤ state.pos)
    (twins : w.whole ∨ low ≤ w.high -> TwinsAt w calm state there mode parser beside) :
    TwinsAt w calm state there mode parser beside where
  own := own
  agrees := fun linked value after run near => by
    refine (twins (near.imp_right fun ⟨at_, _⟩ => ?_)).agrees linked value after run near
    have forward := (own.added value after run).forward
    rcases at_ with further | ⟨same, -⟩ <;> omega
  fails := fun linked whole => (twins (.inl whole)).fails linked whole

/-- The other parser gives up. -/
theorem of_endless {last : State}
    (own : FollowsAt (.self w.sound) state mode parser parser)
    (givesUp : beside there = .error (.fault .endless) last) :
    TwinsAt w calm state there mode parser beside where
  own := own
  agrees := fun _ _ _ _ _ => .inl ⟨last, givesUp⟩
  fails := fun _ _ _ _ _ _ => ⟨_, last, givesUp⟩

/-- Both parsers reject the source text. -/
theorem of_errors {error also : Error} {after last : State}
    (within : state.Within w.tokens)
    (failed : parser state = .error error after)
    (alsoFailed : beside there = .error also last) :
    TwinsAt w calm state there mode parser beside :=
  .of_error within failed fun _ _ _ => ⟨also, last, alsoFailed⟩

omit [Carried α] in
/-- The source text is rejected, whatever would follow. -/
theorem rejects [Carried β] {mode : Mode β} {rest behind : α -> Parser β}
    (within : state.Within w.tokens) (cause why : Cause) :
    TwinsAt w calm state there mode (failHere cause >>= rest) (failHere why >>= behind) :=
  .of_errors within (bind_fail rfl) (bind_fail rfl)

/-- A parser that reads the state first. -/
theorem get_bind {rest behind : State -> Parser α} (within : state.Within w.tokens)
    (twins : TwinsAt w calm state there mode (rest state) (behind there)) :
    TwinsAt w calm state there mode (get >>= rest) (get >>= behind) :=
  ⟨.self within twins.own.added twins.own.gives twins.own.passes,
    twins.agrees, twins.fails⟩

/-! ### Looking at tokens -/

/-- What stands at the cursor counts for a run that is followed. -/
theorem faces [settled : mode.Settled]
    (twins : TwinsAt w calm state there mode parser beside)
    (followed : w.whole ∨ ∃ value after,
      parser state = .ok value after ∧ w.Near calm mode value after) :
    w.Faces calm state.pos := by
  rcases followed with whole | ⟨value, after, run, whole | ⟨at_, -⟩⟩
  · exact .inl (.inl whole)
  · exact .inl (.inl whole)
  · have forward := (twins.own.added value after run).forward
    rcases at_ with further | ⟨same, inside | calm⟩
    · exact .inl (.inr (Nat.lt_of_le_of_lt forward further))
    · have passed :=
        twins.own.passes value after run (settled.passes_of_inside value inside)
      exact .inl (.inr (same ▸ passed))
    · exact (Nat.lt_or_eq_of_le (same ▸ forward)).imp .inr fun same => ⟨calm, same⟩

/-- The other parser may look at the token at the cursor. -/
theorem here {other : Parser α} [mode.Settled]
    (same : w.Linked state there -> w.Faces calm state.pos -> other there = beside there)
    (twins : TwinsAt w calm state there mode parser beside) :
    TwinsAt w calm state there mode parser other :=
  twins.swap fun linked followed => same linked (twins.faces followed)

/-- If a token is passed in any case, it is shown. -/
theorem shown {other : Parser α} (passes : ∀ value, mode.passes value)
    (same : w.Linked state there -> w.Shown state.pos -> other there = beside there)
    (twins : TwinsAt w calm state there mode parser beside) :
    TwinsAt w calm state there mode parser other := by
  refine twins.swap fun linked followed => same linked ?_
  rcases followed with whole | ⟨value, after, run, whole | ⟨at_, -⟩⟩
  · exact .inl whole
  · exact .inl whole
  · have passed := twins.own.passes value after run (passes value)
    rcases at_ with further | ⟨same, -⟩
    · exact .inr (Nat.lt_trans passed further)
    · exact .inr (same ▸ passed)

/-- If a token is passed in any case, the other parser may look at the one behind it. -/
theorem ahead {other : Parser α} {gives : α -> Prop}
    (same : w.Linked state there -> w.Shown state.pos -> w.Faces calm (state.pos + 1) ->
      other there = beside there)
    (twins : TwinsAt w calm state there (.giving .passing gives) parser beside) :
    TwinsAt w calm state there (.giving .passing gives) parser other := by
  refine twins.swap fun linked followed => ?_
  rcases followed with whole | ⟨value, after, run, whole | ⟨at_, -⟩⟩
  · exact same linked (.inl whole) (.inl (.inl whole))
  · exact same linked (.inl whole) (.inl (.inl whole))
  · have passed := twins.own.passes value after run trivial
    rcases at_ with further | ⟨stop, never | calm⟩
    · exact same linked (.inr (Nat.lt_trans passed further))
        (.inl (.inr (Nat.lt_of_le_of_lt passed further)))
    · exact never.elim
    · exact same linked (.inr (stop ▸ passed)) <|
        (Nat.lt_or_eq_of_le (stop ▸ passed)).imp .inr fun same => ⟨calm, same⟩

/-- If two tokens are passed, the other parser may look at both. -/
theorem ahead_two {other : Parser α}
    (two : ∀ value after, parser state = .ok value after -> state.pos + 1 < after.pos)
    (same : w.Linked state there -> w.Shown (state.pos + 1) -> other there = beside there)
    (twins : TwinsAt w calm state there mode parser beside) :
    TwinsAt w calm state there mode parser other := by
  refine twins.swap fun linked followed => same linked ?_
  rcases followed with whole | ⟨value, after, run, whole | ⟨at_, -⟩⟩
  · exact .inl whole
  · exact .inl whole
  · have passed := two value after run
    rcases at_ with further | ⟨stop, -⟩
    · exact .inr (Nat.lt_trans passed further)
    · exact .inr (stop ▸ passed)

/-- A parser that passes a token, and then goes on as another. -/
theorem behind_token {goes alsoGoes : Parser α}
    (within : state.Within w.tokens)
    (more : state.current.kind ≠ .eof)
    (wordless : state.current.kind.string? = none)
    (run : parser state = goes state.next)
    (runBeside : w.Linked state there -> w.Shown state.pos ->
      beside there = alsoGoes there.next)
    (twins : TwinsAt w calm state.next there.next mode.landed goes alsoGoes) :
    TwinsAt w calm state there mode parser beside := by
  have added {value : α} {after : State} (reached : parser state = .ok value after) :=
    twins.own.added value after (run ▸ reached)
  have further := lt_last w.sound.ended within.same more
  rw [State.current, State.token, within.same] at wordless
  refine ⟨.self within
    (fun value after reached => (Added.next within further wordless).trans
      (added reached))
    (fun value after reached => twins.own.gives value after (run ▸ reached))
    fun value after reached _ => (added reached).forward, ?_, ?_⟩
  · intro linked value after reached near
    have forward : state.pos < after.pos := (added reached).forward
    have shown : w.Shown state.pos := near.imp_right fun inside => by
      rcases inside.1 with further | ⟨same, -⟩
      · exact Nat.lt_trans forward further
      · exact same ▸ forward
    rw [runBeside linked shown]
    exact twins.agrees (linked.next shown more) value after (run ▸ reached) near
  · intro linked whole error after failed
    rw [runBeside linked (.inl whole)]
    exact twins.fails (linked.next (.inl whole) more) whole error after (run ▸ failed)

/-- A parser that passes two tokens, and may look at both before. -/
theorem behind_two {other goes alsoGoes : Parser α} {gives : α -> Prop}
    (within : state.Within w.tokens)
    (more : state.current.kind ≠ .eof)
    (wordless : state.current.kind.string? = none)
    (run : parser state = goes state.next)
    (runBeside : w.Linked state there -> w.Shown (state.pos + 1) ->
      other there = alsoGoes there.next)
    (twins : TwinsAt w calm state.next there.next (.giving .passing gives)
      goes alsoGoes) :
    TwinsAt w calm state there (.giving .passing gives) parser other :=
  @ahead_two _ _ _ _ _ _ _ _ (fun also => alsoGoes also.next) _
    (fun value after reached => twins.own.passes value after (run ▸ reached) trivial)
      runBeside <| .behind_token within more wordless run (fun _ _ => rfl)
        (twins.weaken ⟨fun _ never => never.elim, fun _ => id, fun _ => id⟩)

/-! ### One parser behind another -/

section

variable [Carried β] {joint : Mode β} {rest behind : α -> Parser β} {gives : α -> Prop}

/-- A parser that looks at no token, in front of another. -/
theorem blind
    (one : TwinsAt w calm state there (.giving .blind gives) parser beside)
    (other : ∀ value after reached, parser state = .ok value after ->
      Added w.tokens state after -> gives value ->
        TwinsAt w calm after reached joint (rest value) (behind (carry w.names value))) :
    TwinsAt w calm state there joint (parser >>= rest) (beside >>= behind) :=
  one.bind (fun value after reached run added given _ =>
    other value after reached run added given)
    fun _ _ => ⟨fun _ _ => .inr, fun _ _ inside => ⟨inside, .inl trivial⟩, fun _ => id⟩

/-- A parser that may look at the token at its end, in front of another. -/
theorem peek [settled : joint.Settled]
    (one : TwinsAt w calm state there (.giving .peeking gives) parser beside)
    (other : ∀ value after reached, parser state = .ok value after ->
      Added w.tokens state after -> gives value ->
        TwinsAt w calm after reached joint (rest value) (behind (carry w.names value))) :
    TwinsAt w calm state there joint (parser >>= rest) (beside >>= behind) :=
  one.bind (fun value after reached run added given _ =>
    other value after reached run added given)
    fun _ _ => ⟨fun _ _ => .inr,
      fun result _ inside => ⟨inside, .inr (settled.passes_of_inside result inside)⟩,
        fun _ => id⟩

/-- A parser that passes a token, in front of another. -/
theorem lead
    (one : TwinsAt w calm state there (.giving .passing gives) parser beside)
    (other : ∀ value, gives value -> w.low ≤ state.pos ->
      Twins w calm (state.pos + 1) joint.pushed (rest value)
        (behind (carry w.names value)))
    (reached : w.low ≤ state.pos) :
    TwinsAt w calm state there joint (parser >>= rest) (beside >>= behind) :=
  one.bind (fun value after beyond _ added given passes =>
      other value given reached (Nat.le_succ_of_le reached) after beyond added.within
        (passes trivial)) fun _ _ =>
    ⟨fun _ _ _ => .inl trivial, fun _ _ inside => ⟨inside, .inr inside⟩, fun _ => id⟩

/-- A parser that passes a token and looks at no other, in front of another. -/
theorem close
    (one : TwinsAt w calm state there (.giving .closing gives) parser beside)
    (other : ∀ value, gives value -> w.low ≤ state.pos ->
      Twins w calm (state.pos + 1) joint.landed (rest value)
        (behind (carry w.names value)))
    (reached : w.low ≤ state.pos) :
    TwinsAt w calm state there joint (parser >>= rest) (beside >>= behind) :=
  one.bind (fun value after beyond _ added given passes =>
      other value given reached (Nat.le_succ_of_le reached) after beyond added.within
        (passes trivial)) fun _ _ =>
    ⟨fun _ _ _ => .inl trivial, fun _ _ inside => ⟨inside, .inl trivial⟩, fun _ => id⟩

end

/-- A parser behind another one that neither moves the cursor nor adds to the tables of
types and nodes, but changes what has been entered. -/
theorem settle [Carried β] {joint : Mode β} {rest behind : α -> Parser β}
    (own : FollowsAt (.self w.sound) state joint (parser >>= rest) (parser >>= rest))
    (one : TwinsAt w calm state there mode parser beside)
    (stays : ∀ value after result last, parser state = .ok value after ->
      rest value after = .ok result last -> last.pos = after.pos ∧
        last.program.types.entries.size = after.program.types.entries.size ∧
        last.program.nodes.size = after.program.nodes.size ∧
        (joint.inside result -> mode.inside value))
    (other : ∀ value after reached, parser state = .ok value after ->
      w.Linked after reached ->
      w.Ends (rest value after) (behind (carry w.names value) reached)) :
    TwinsAt w calm state there joint (parser >>= rest) (beside >>= behind) where
  own := own
  agrees := by
    intro linked result last run near
    obtain ⟨value, after, firstRun, secondRun⟩ := bind_ok run
    obtain ⟨pos, types, nodes, inside⟩ := stays value after result last firstRun secondRun
    have firstNear : w.Near calm mode value after := by
      unfold Window.Near at near ⊢
      rw [pos, types, nodes] at near
      exact near.imp_right fun ⟨at_, room⟩ =>
        ⟨at_.imp_right fun ⟨same, why⟩ => ⟨same, why.imp_left inside⟩, room⟩
    rcases one.agrees linked value after firstRun firstNear with
      ⟨end_, gaveUp⟩ | ⟨reached, alsoRun, behindFirst⟩
    · exact .inl ⟨end_, bind_fail gaveUp⟩
    · rw [bind_run alsoRun]
      exact (other value after reached firstRun behindFirst).ok result last secondRun
  fails := by
    intro linked whole error last run differs
    cases known : parser state with
    | ok value after =>
        rw [bind_run known] at run
        rcases one.agrees linked value after known (.inl whole) with
          ⟨end_, gaveUp⟩ | ⟨reached, alsoRun, behindFirst⟩
        · exact ⟨_, end_, bind_fail gaveUp⟩
        · rw [bind_run alsoRun]
          exact (other value after reached known behindFirst).error whole error
            last run differs
    | error reason middle =>
        rw [bind_fail known] at run
        cases run
        obtain ⟨also, end_, failed⟩ := one.fails linked whole _ _ known differs
        exact ⟨also, end_, bind_fail failed⟩

/-- In a plain window no brace is passed. -/
theorem unbraced {offset : Nat} (plain : w.plain) (within : state.Within w.tokens)
    (own : FollowsAt (.self w.sound) state mode parser parser)
    (opens : ∀ value after, parser state = .ok value after ->
      state.seesAt (state.pos + offset) openBrace = true ∧
        state.pos + offset < after.pos) :
    TwinsAt w calm state there mode parser beside where
  own := own
  agrees := by
    intro linked value after run near
    obtain ⟨brace, passed⟩ := opens value after run
    have reached := linked.reached
    have further : state.pos + offset < w.high := by
      rcases (near.resolve_left (w.loud plain)).1 with further | ⟨same, -⟩ <;> omega
    have none := (w.quiet plain (state.pos + offset - w.low) (by omega)).1
    rw [show w.low + (state.pos + offset - w.low) = state.pos + offset by omega,
      ← within.same] at none
    cases brace.symm.trans none
  fails := fun _ whole => absurd whole (w.loud plain)

theorem ite {condition also : Prop} [Decidable condition] [Decidable also]
    {left right besideLeft besideRight : Parser α} (same : also ↔ condition)
    (first : condition -> TwinsAt w calm state there mode left besideLeft)
    (second : ¬ condition -> TwinsAt w calm state there mode right besideRight) :
    TwinsAt w calm state there mode (if condition then left else right)
      (if also then besideLeft else besideRight) := by
  by_cases holds : condition
  · rw [if_pos holds, if_pos (same.mpr holds)]
    exact first holds
  · rw [if_neg holds, if_neg fun holding => holds (same.mp holding)]
    exact second holds

end TwinsAt

namespace Twins

variable [Carried α] [Carried β] {mode weak : Mode α} {joint : Mode β}
  {parser beside : Parser α} {rest behind : α -> Parser β}

theorem weaken (twins : Twins w calm low mode parser beside) (weaker : weak.Weaker mode) :
    Twins w calm low weak parser beside :=
  fun inside state there within reached =>
    (twins inside state there within reached).weaken weaker

/-- A parser that passes a token may be used where none has to be passed. -/
theorem loose (twins : Twins w calm low .passing parser beside) :
    Twins w calm low .peeking parser beside :=
  twins.weaken ⟨fun _ never => never.elim, fun _ => id, fun _ => id⟩

theorem of_closing (twins : Twins w calm low .closing parser beside) :
    Twins w calm low .passing parser beside :=
  twins.weaken ⟨fun _ => id, fun _ never => never.elim, fun _ => id⟩

theorem of_blind (twins : Twins w calm low .blind parser beside) :
    Twins w calm low .peeking parser beside :=
  twins.weaken ⟨fun _ => id, fun _ never => never.elim, fun _ => id⟩

theorem mono {earlier : Nat} (twins : Twins w calm earlier mode parser beside)
    (inside : w.low ≤ earlier) (before : earlier ≤ low) :
    Twins w calm low mode parser beside :=
  fun _ state there within reached => twins inside state there within
    (Nat.le_trans before reached)

/-- A parser that is followed up to the end of a calm window is followed before it. -/
theorem strict (twins : Twins w calm low mode parser beside) :
    Twins w False low mode parser beside :=
  fun inside state there within reached =>
    let twins := twins inside state there within reached
    { own := twins.own
      agrees := fun linked value after run near =>
        twins.agrees linked value after run <| near.imp_right fun ⟨at_, room⟩ =>
          ⟨at_.imp_right fun ⟨same, why⟩ => ⟨same, why.imp_right False.elim⟩, room⟩
      fails := twins.fails }

/-- A parser that looks at no token but those it passes may be used in calm windows. -/
theorem calmed (twins : Twins w False low mode parser beside)
    (inside : ∀ value, mode.inside value) : Twins w calm low mode parser beside :=
  fun reach state there within reached =>
    (twins reach state there within reached).calmed inside

/-! ### One parser behind another -/

theorem bind_gives {gives : α -> Prop}
    (one : Twins w calm low (.giving .blind gives) parser beside)
    (other : ∀ value, gives value ->
      Twins w calm low joint (rest value) (behind (carry w.names value))) :
    Twins w calm low joint (parser >>= rest) (beside >>= behind) :=
  fun inside state there within reached =>
    (one inside state there within reached).blind fun value after beyond _ added given =>
      other value given inside after beyond added.within
        (Nat.le_trans reached added.forward)

theorem bind (one : Twins w calm low .blind parser beside)
    (other : ∀ value, Twins w calm low joint (rest value)
      (behind (carry w.names value))) :
    Twins w calm low joint (parser >>= rest) (beside >>= behind) :=
  .bind_gives one fun value _ => other value

theorem peek_gives {gives : α -> Prop} [joint.Settled]
    (one : Twins w calm low (.giving .peeking gives) parser beside)
    (other : ∀ value, gives value ->
      Twins w calm low joint (rest value) (behind (carry w.names value))) :
    Twins w calm low joint (parser >>= rest) (beside >>= behind) :=
  fun inside state there within reached =>
    (one inside state there within reached).peek fun value after beyond _ added given =>
      other value given inside after beyond added.within
        (Nat.le_trans reached added.forward)

theorem peek [joint.Settled] (one : Twins w calm low .peeking parser beside)
    (other : ∀ value, Twins w calm low joint (rest value)
      (behind (carry w.names value))) :
    Twins w calm low joint (parser >>= rest) (beside >>= behind) :=
  .peek_gives one fun value _ => other value

theorem lead (one : Twins w calm low .passing parser beside)
    (other : ∀ value,
      Twins w calm (low + 1) joint.pushed (rest value) (behind (carry w.names value))) :
    Twins w calm low joint (parser >>= rest) (beside >>= behind) :=
  fun inside state there within reached =>
    @TwinsAt.lead _ _ _ _ _ _ _ _ _ _ _ _ _ (fun _ => True)
      (one inside state there within reached)
      (fun value _ _ => (other value).mono (Nat.le_succ_of_le inside)
        (Nat.succ_le_succ reached))
      (Nat.le_trans inside reached)

theorem close_gives {gives : α -> Prop}
    (one : Twins w calm low (.giving .closing gives) parser beside)
    (other : ∀ value, gives value ->
      Twins w calm (low + 1) joint.landed (rest value) (behind (carry w.names value))) :
    Twins w calm low joint (parser >>= rest) (beside >>= behind) :=
  fun inside state there within reached =>
    (one inside state there within reached).close
      (fun value given _ =>
        (other value given).mono (Nat.le_succ_of_le inside) (Nat.succ_le_succ reached))
      (Nat.le_trans inside reached)

theorem close (one : Twins w calm low .closing parser beside)
    (other : ∀ value,
      Twins w calm (low + 1) joint.landed (rest value) (behind (carry w.names value))) :
    Twins w calm low joint (parser >>= rest) (beside >>= behind) :=
  .close_gives one fun value _ => other value

/-- A parser that is not followed up to the end of a calm window, in front of one that
passes a token. -/
theorem enclosed [settled : joint.Settled] (passes : ∀ value, joint.passes value)
    (one : Twins w False low .peeking parser beside)
    (other : ∀ value, Twins w calm low joint (rest value)
      (behind (carry w.names value))) :
    Twins w calm low joint (parser >>= rest) (beside >>= behind) :=
  fun inside state there within reached =>
    @TwinsAt.bind_calm _ _ _ _ _ _ _ _ _ _ (fun _ => joint) _ _ _ _ _
      (one inside state there within reached)
      (fun value after beyond _ added _ _ =>
        other value inside after beyond added.within (Nat.le_trans reached added.forward))
      (fun _ _ => ⟨fun _ _ => .inr,
        fun result _ inside => ⟨inside, .inr (settled.passes_of_inside result inside)⟩,
        fun _ => id⟩)
      fun _ => .inr fun _ _ => .inr fun result _ => passes result

/-! ### Parsers that read the state -/

theorem get_bind {rest behind : State -> Parser β}
    (other : ∀ state there, w.low ≤ low -> state.Within w.tokens -> low ≤ state.pos ->
      TwinsAt w calm state there joint (rest state) (behind there)) :
    Twins w calm low joint (get >>= rest) (get >>= behind) :=
  fun inside state there within reached =>
    .get_bind within (other state there inside within reached)

/-- The place of the token at the cursor is kept. -/
theorem position_bind {rest behind : Nat -> Parser β}
    (other : ∀ tok also, low ≤ tok -> w.Placed (tok + 1) tok also ->
      Twins w calm tok joint (rest tok) (behind also)) :
    Twins w calm low joint (position >>= rest) (position >>= behind) := by
  intro inside state there within reached
  have within_ := Nat.le_trans inside reached
  have own := (other state.pos _ reached (.self within_ (Nat.lt_succ_self _))
    within_ state there within (Nat.le_refl _)).own
  have owned :
      FollowsAt (.self w.sound) state joint (position >>= rest) (position >>= rest) :=
    .self within own.added own.gives own.passes
  refine .of_linked owned fun linked => ?_
  have twins := other state.pos there.pos reached
    (.cursor linked (Nat.lt_succ_self _)) within_ state there within (Nat.le_refl _)
  exact ⟨owned, twins.agrees, twins.fails⟩

/-- The place of the token at the cursor is kept where it does not matter. -/
theorem position_any {rest behind : Nat -> Parser β}
    (other : ∀ tok also, low ≤ tok -> Twins w calm tok joint (rest tok) (behind also)) :
    Twins w calm low joint (position >>= rest) (position >>= behind) :=
  .position_bind fun tok also reached _ => other tok also reached

/-! ### Parsers that end at once -/

/-- A value is given that is the same under other references. -/
theorem pure {value : α} (stays : ¬ mode.passes value) (given : mode.gives value) :
    Twins w calm low mode (Pure.pure value) (Pure.pure (carry w.names value)) :=
  fun _ _ there within _ => .of_ok within rfl (.refl within) given
    (fun passes => absurd passes stays) fun linked _ => .inr ⟨there, rfl, linked⟩

theorem pure_of_eq {value also : α} (stays : ¬ mode.passes value)
    (given : mode.gives value) (same : also = carry w.names value) :
    Twins w calm low mode (Pure.pure value) (Pure.pure also) :=
  same ▸ pure stays given

/-- A value that is the same under other references if the token at the cursor is shown.
-/
theorem pure_shown [unsure : mode.Open] {value also : α} (stays : ¬ mode.passes value)
    (given : mode.gives value) (same : w.Shown low -> also = carry w.names value) :
    Twins w False low mode (Pure.pure value) (Pure.pure also) :=
  fun _ _ there within reached => .of_ok within rfl (.refl within) given
    (fun passes => absurd passes stays) fun linked near => by
      have shown : w.Shown low := near.imp_right fun ⟨at_, _⟩ =>
        Nat.lt_of_le_of_lt reached <| at_.resolve_right fun ⟨_, why⟩ =>
          why.elim (unsure.not_inside value) id
      exact .inr ⟨there, by rw [same shown]; rfl, linked⟩

theorem throw (error also : Error) : Twins w calm low mode (throw error) (throw also) :=
  fun _ _ _ within _ => .of_errors within rfl rfl

theorem failAt (index other : Nat) (cause why : Cause) :
    Twins w calm low mode (failAt index cause) (failAt other why) :=
  fun _ _ _ within _ => .of_errors within rfl rfl

theorem failHere (cause why : Cause) :
    Twins w calm low mode (failHere cause) (failHere why) :=
  fun _ _ _ within _ => .of_errors within rfl rfl

/-- Parsers that may not be called are followed by any. -/
theorem exhausted : Twins w calm low mode (MonadExcept.throw (.fault .endless)) beside :=
  fun _ _ _ within _ =>
    ⟨.self within (fun _ _ run => by cases run) (fun _ _ run => by cases run)
      fun _ _ run => (by cases run), fun _ _ _ run => (by cases run),
      fun _ _ _ _ run differs => by cases run; exact absurd rfl differs⟩

theorem query {read alsoRead : Program -> Except Error α}
    (renames : ∀ program other, w.Tables program other ->
      MiniC.Renames w.names w.whole (read program) (alsoRead other)) :
    Twins w calm low .blind (query read) (query alsoRead) := by
  intro _ state there within _
  have run : Grammar.query read state = ofExcept (read state.program) state := rfl
  have other : Grammar.query alsoRead there = ofExcept (alsoRead there.program) there :=
    rfl
  cases known : read state.program with
  | ok value =>
      rw [known] at run
      refine .of_ok within run (.refl within) trivial (fun never => never.elim)
        fun linked _ => ?_
      rw [other, (renames _ _ linked.tables).ok value known]
      exact .inr ⟨there, rfl, linked⟩
  | error error =>
      rw [known] at run
      refine .of_error within run fun linked whole _ => ?_
      obtain ⟨also, failed⟩ := (renames _ _ linked.tables).error whole error known
      rw [other, failed]
      exact ⟨also, there, rfl⟩

/-! ### Choices -/

theorem ite {condition also : Prop} [Decidable condition] [Decidable also]
    {left right besideLeft besideRight : Parser α} (same : also ↔ condition)
    (first : Twins w calm low mode left besideLeft)
    (second : Twins w calm low mode right besideRight) :
    Twins w calm low mode (if condition then left else right)
      (if also then besideLeft else besideRight) :=
  fun inside state there within reached =>
    .ite same (fun _ => first inside state there within reached)
      fun _ => second inside state there within reached

/-- A check in front of a parser. -/
theorem first_if {condition also : Prop} [Decidable condition] [Decidable also]
    {parser beside : Parser Unit} {rest behind : Unit -> Parser β}
    (same : also ↔ condition) (first : Twins w calm low .blind parser beside)
    (second : ∀ value, Twins w calm low joint (rest value) (behind value)) :
    Twins w calm low joint (if condition then parser >>= rest else rest ())
      (if also then beside >>= behind else behind ()) :=
  .ite same (.bind first second) (second ())

/-- A check the other way round in front of a parser. -/
theorem first_unless {condition also : Prop} [Decidable condition] [Decidable also]
    {parser beside : Parser Unit} {rest behind : Unit -> Parser β}
    (same : also ↔ condition) (first : Twins w calm low .blind parser beside)
    (second : ∀ value, Twins w calm low joint (rest value) (behind value)) :
    Twins w calm low joint (if condition then rest () else parser >>= rest)
      (if also then behind () else beside >>= behind) :=
  .ite same (second ()) (.bind first second)

/-- A separator in front of a parser, but not in front of the first. -/
theorem separated {condition also : Prop} [Decidable condition] [Decidable also]
    {parser beside : Parser Unit} {rest behind : Unit -> Parser β} [joint.Settled]
    (same : also ↔ condition) (first : Twins w calm low .closing parser beside)
    (second : ∀ value, Twins w calm low joint (rest value) (behind value)) :
    Twins w calm low joint (if condition then rest () else parser >>= rest)
      (if also then behind () else beside >>= behind) :=
  .ite same (second ()) (.peek first.of_closing.loose second)

end Twins

/-! ### The cursor -/

section

variable [Carried α] {mode : Mode α} {symbol : String}
    {yes no besideYes besideNo : Parser α}

/-- A symbol that stands at the cursor is passed. -/
theorem TwinsAt.accept_seen (within : state.Within w.tokens) (reached : w.low ≤ state.pos)
    (here : state.sees symbol = true)
    (first : Twins w calm (state.pos + 1) mode.landed yes besideYes) :
    TwinsAt w calm state there mode (do if ← accept symbol then yes else no)
      (do if ← accept symbol then besideYes else besideNo) := by
  have more := kind_ne_eof_of_isSymbol here
  exact .behind_token within more (Token.string?_of_isSymbol here) (accept_then here)
    (fun linked shown => accept_then ((shown.sees linked symbol).trans here))
    (first (Nat.le_succ_of_le reached) _ _ (Window.within_next within more)
      (Nat.le_refl _))

/-- A symbol is consumed, or another parser goes on. -/
theorem TwinsAt.accept [mode.Settled] [closes : w.Closes calm]
    (within : state.Within w.tokens) (reached : w.low ≤ state.pos)
    (open_ : calm -> symbol ≠ ")")
    (first : Twins w calm (state.pos + 1) mode.landed yes besideYes)
    (second : TwinsAt w calm state there mode no besideNo) :
    TwinsAt w calm state there mode (do if ← Grammar.accept symbol then yes else no)
      (do if ← Grammar.accept symbol then besideYes else besideNo) := by
  by_cases here : state.sees symbol = true
  · exact .accept_seen within reached here first
  · have other : state.sees symbol = false := by simpa using here
    exact .congr within (accept_else other) <|
      .here (fun linked faces => accept_else (faces.sees linked other open_)) second

/-- A symbol is consumed, or another parser goes on, at most up to an opening parenthesis.
-/
theorem TwinsAt.accept_mild [mode.Settled] [w.Opens calm] (within : state.Within w.tokens)
    (reached : w.low ≤ state.pos)
    (closed : symbol ≠ "(")
    (first : Twins w calm (state.pos + 1) mode.landed yes besideYes)
    (second : TwinsAt w calm state there mode no besideNo) :
    TwinsAt w calm state there mode (do if ← Grammar.accept symbol then yes else no)
      (do if ← Grammar.accept symbol then besideYes else besideNo) := by
  by_cases here : state.sees symbol = true
  · exact .accept_seen within reached here first
  · have other : state.sees symbol = false := by simpa using here
    refine .congr within (accept_else other) <|
      .here (fun linked faces => accept_else ?_) second
    rcases faces with shown | ⟨mild, stop⟩
    · exact (shown.sees linked symbol).trans other
    · exact @Window.Linked.seesAt_open _ _ _ 0 _ _ linked mild stop _ closed

/-- Any symbol may be consumed, if a token is passed in any case. -/
theorem TwinsAt.accept_passing (passes : ∀ value, mode.passes value)
    (within : state.Within w.tokens) (reached : w.low ≤ state.pos)
    (first : Twins w calm (state.pos + 1) mode.landed yes besideYes)
    (second : TwinsAt w calm state there mode no besideNo) :
    TwinsAt w calm state there mode (do if ← Grammar.accept symbol then yes else no)
      (do if ← Grammar.accept symbol then besideYes else besideNo) := by
  by_cases here : state.sees symbol = true
  · exact .accept_seen within reached here first
  · have other : state.sees symbol = false := by simpa using here
    exact .congr within (accept_else other) <|
      .shown passes (fun linked shown => accept_else
        ((shown.sees linked symbol).trans other)) second

end

theorem digits_run {negative : Bool} {value : Int}
    (known : state.current.kind = .num value) :
    digits negative state =
      (if negative then negated value else pure value : Parser Int) state.next := by
  unfold digits
  rw [get_run, known]
  rfl

theorem digits_fails (negative : Bool)
    (other : ∀ value, state.current.kind ≠ .num value) :
    ∃ error after, digits negative state = .error error after := by
  unfold digits
  rw [get_run]
  cases kind : state.current.kind with
  | num value => exact absurd kind (other value)
  | _ => exact ⟨_, _, rfl⟩

namespace Twins

variable [Carried α] {mode : Mode α} {symbol : String}
    {yes no besideYes besideNo : Parser α}

theorem accept [mode.Settled] [w.Closes calm] (open_ : calm -> symbol ≠ ")")
    (first : Twins w calm (low + 1) mode.landed yes besideYes)
    (second : Twins w calm low mode no besideNo) :
    Twins w calm low mode (do if ← Grammar.accept symbol then yes else no)
      (do if ← Grammar.accept symbol then besideYes else besideNo) :=
  fun inside state there within reached =>
    .accept within (Nat.le_trans inside reached) open_
      (first.mono (Nat.le_succ_of_le inside) (Nat.succ_le_succ reached))
      (second inside state there within reached)

theorem accept_mild [mode.Settled] [w.Opens calm] (closed : symbol ≠ "(")
    (first : Twins w calm (low + 1) mode.landed yes besideYes)
    (second : Twins w calm low mode no besideNo) :
    Twins w calm low mode (do if ← Grammar.accept symbol then yes else no)
      (do if ← Grammar.accept symbol then besideYes else besideNo) :=
  fun inside state there within reached =>
    .accept_mild within (Nat.le_trans inside reached) closed
      (first.mono (Nat.le_succ_of_le inside) (Nat.succ_le_succ reached))
      (second inside state there within reached)

theorem accept_passing (passes : ∀ value, mode.passes value)
    (first : Twins w calm (low + 1) mode.landed yes besideYes)
    (second : Twins w calm low mode no besideNo) :
    Twins w calm low mode (do if ← Grammar.accept symbol then yes else no)
      (do if ← Grammar.accept symbol then besideYes else besideNo) :=
  fun inside state there within reached =>
    .accept_passing passes within (Nat.le_trans inside reached)
      (first.mono (Nat.le_succ_of_le inside) (Nat.succ_le_succ reached))
      (second inside state there within reached)

theorem expect (symbol : String) :
    Twins w calm low .closing (expect symbol) (expect symbol) :=
  .accept_passing (fun _ => trivial) (.pure id trivial)
    (.get_bind fun state there inside within reached =>
      failHere _ _ inside state there within reached)

/-- An identifier is consumed together with its place. -/
theorem identifier :
    Twins w calm low (.giving .closing fun named =>
      (w.tokens.get named.2).isIdentifier = true)
      identifier identifier := by
  intro inside state there within reached
  cases here : state.current.isIdentifier with
  | true =>
      have own : (w.tokens.get state.pos).isIdentifier = true := by
        rw [← within.same]
        exact here
      have more := kind_ne_eof_of_isIdentifier here
      refine @TwinsAt.behind_token _ _ _ _ _ _ _ _ _ (Pure.pure
        (state.current.text, state.pos))
        (Pure.pure (carry w.names (state.current.text, state.pos))) within more
        (Token.string?_of_isIdentifier here) (identifier_run here)
        (fun linked shown => ?_) ?_
      · rw [identifier_run ((shown.isIdentifier linked).trans here), shown.text linked,
          ← shown.place linked]
        rfl
      · exact Twins.pure id own inside _ _ (Window.within_next within more)
          (Nat.le_succ_of_le reached)
  | false =>
      have nameless {also : State} (none : also.current.isIdentifier = false) :
          Grammar.identifier also =
            (Grammar.failHere (.grammar (.expectedIdentifier also.current.describe)) :
              Parser (String × Nat)) also := by
        change (if also.current.isIdentifier = true then _ else _ : Parser _) also = _
        rw [none]
        rfl
      refine .of_error within ((nameless here).trans rfl) fun linked whole _ => ?_
      have other := (Window.Shown.isIdentifier linked (.inl whole)).trans here
      exact ⟨_, _, (nameless other).trans rfl⟩

/-- An identifier may stand at the cursor. -/
theorem identifier? [closes : w.Closes calm] :
    Twins w calm low (.giving .peeking fun found => ∀ named, found = some named ->
      (w.tokens.get named.2).isIdentifier = true) identifier? identifier? := by
  intro inside state there within reached
  cases here : state.current.isIdentifier with
  | true =>
      have own : (w.tokens.get state.pos).isIdentifier = true := by
        rw [← within.same]
        exact here
      have more := kind_ne_eof_of_isIdentifier here
      refine @TwinsAt.behind_token _ _ _ _ _ _ _ _ _
        (Pure.pure (some (state.current.text, state.pos)))
        (Pure.pure (carry w.names (some (state.current.text, state.pos)))) within more
        (Token.string?_of_isIdentifier here) (identifier?_run here)
        (fun linked shown => ?_) ?_
      · rw [identifier?_run ((shown.isIdentifier linked).trans here), shown.text linked,
          ← shown.place linked]
        rfl
      · exact Twins.pure id (by rintro _ ⟨⟩; exact own) inside _ _
          (Window.within_next within more) (Nat.le_succ_of_le reached)
  | false =>
      have nothing : Twins w calm low
          (.giving .peeking fun found => ∀ named : String × Nat,
          found = some named -> (w.tokens.get named.2).isIdentifier = true)
          (Pure.pure none) (Pure.pure none) :=
        .pure id (fun _ never => by cases never)
      refine .congr within (identifier?_none here) <|
        .here (fun linked faces => identifier?_none ?_)
          (nothing inside state there within reached)
      rcases faces with shown | ⟨calm, stop⟩
      · exact (shown.isIdentifier linked).trans here
      · exact linked.isIdentifier_stop (closes.stops calm) stop

/-- A value in range. -/
theorem negated (value : Int) : Twins w calm low .blind (negated value) (negated value) :=
  .ite Iff.rfl (.pure id trivial) (.throw _ _)

theorem digits (negative : Bool) :
    Twins w calm low .closing (digits negative) (digits negative) := by
  intro inside state there within reached
  by_cases numeric : ∃ value, state.current.kind = .num value
  · obtain ⟨value, kind⟩ := numeric
    have more : state.current.kind ≠ .eof := by rw [kind]; exact TokenKind.noConfusion
    have signed : Twins w calm (state.pos + 1) .blind
        (if negative then Grammar.negated value else Pure.pure value)
        (if negative then Grammar.negated value else Pure.pure value) :=
      .ite Iff.rfl (.negated value) (.pure id trivial)
    exact .behind_token within more (by rw [kind]; rfl) (digits_run kind)
      (fun linked shown => digits_run ((shown.kind linked).trans kind))
      (signed (Nat.le_trans inside (Nat.le_succ_of_le reached)) _ _
        (Window.within_next within more) (Nat.le_refl _))
  · have other (value : Int) : state.current.kind ≠ .num value :=
      fun same => numeric ⟨value, same⟩
    obtain ⟨error, after, failed⟩ := digits_fails negative other
    exact .of_error within failed fun linked whole _ =>
      digits_fails negative ((Window.Shown.kind linked (.inl whole)).symm ▸ other)

theorem number [w.Closes calm] : Twins w calm low .closing number number := by
  rw [number_eq]
  exact .accept (fun _ => by decide)
    ((digits true).weaken ⟨fun _ never => never.elim, fun _ => id, fun _ => id⟩)
    (digits false)

end Twins

/-! ### Loops and scopes -/

namespace Twins

section

variable [Carried α] [Carried σ] {mode : Mode α}

/-- A bounded loop that is followed round by round.  The other loop may give up. -/
theorem iterateFor [settled : mode.Settled] (holds : σ -> Prop)
    {round besideRound : σ -> Parser (Round σ α)}
    (rounds : ∀ current, holds current ->
      Twins w calm low (mode.round holds) (round current)
        (besideRound (carry w.names current)))
    (bound more : Nat)
    (current : σ)
    (holding : holds current) :
    Twins w calm low mode (iterateFor round bound current)
      (iterateFor besideRound more (carry w.names current)) := by
  induction bound generalizing more current with
  | zero => exact .exhausted
  | succ bound hypothesis =>
      have goes (more : Nat) :
          Twins w calm low mode (Grammar.iterateFor round (bound + 1) current)
          (Grammar.iterateFor besideRound (more + 1) (carry w.names current)) := by
        intro inside state there within reached
        refine (rounds current holding inside state there within reached).bind
          (fun result after beyond _ added given _ =>
            (?_ : TwinsAt w calm after beyond (Follows.afterRound mode result) _ _))
          fun result given => ?_
        · cases result with
          | again next =>
              exact hypothesis more next given inside after beyond added.within
                (Nat.le_trans reached added.forward)
          | done value =>
              exact Twins.pure id rfl inside after beyond added.within
                (Nat.le_trans reached added.forward)
        · cases result with
          | again next =>
              exact ⟨fun _ _ => .inr,
                fun value _ inside =>
                  ⟨inside, .inr (settled.passes_of_inside value inside)⟩,
                fun _ => id⟩
          | done value =>
              refine ⟨?_, ?_, ?_⟩
              · rintro _ rfl passes
                exact .inl passes
              · rintro _ rfl inside
                exact ⟨trivial, .inl inside⟩
              · rintro _ rfl
                exact given
      cases more with
      | zero =>
          exact fun inside state there within reached =>
            @TwinsAt.of_endless _ _ _ _ _ _ _ _ _ there
              (goes 0 inside state there within reached).own rfl
      | succ more => exact goes more

/-- A loop that is followed round by round. -/
theorem iterate [mode.Settled] (holds : σ -> Prop) {start : σ}
    {round besideRound : σ -> Parser (Round σ α)} (begins : holds start)
    (rounds : ∀ current, holds current ->
      Twins w calm low (mode.round holds) (round current)
        (besideRound (carry w.names current))) :
    Twins w calm low mode (iterate start round)
      (iterate (carry w.names start) besideRound) :=
  .get_bind fun state there inside within reached =>
    iterateFor holds rounds _ _ start begins inside state there within reached

theorem iterate_of_eq [mode.Settled] (holds : σ -> Prop) {start also : σ}
    {round besideRound : σ -> Parser (Round σ α)} (begins : holds start)
    (same : also = carry w.names start)
    (rounds : ∀ current, holds current ->
      Twins w calm low (mode.round holds) (round current)
        (besideRound (carry w.names current))) :
    Twins w calm low mode (Grammar.iterate start round)
      (Grammar.iterate also besideRound) :=
  same ▸ iterate holds begins rounds

theorem mapM [Carried β] {parse besideParse : β -> Parser α} {list : List β}
    (each : ∀ entry ∈ list,
      Twins w calm low .blind (parse entry) (besideParse (carry w.names entry))) :
    Twins w calm low .blind (list.mapM parse)
      ((carry w.names list).mapM besideParse) := by
  induction list with
  | nil => exact .pure id trivial
  | cons entry rest hypothesis =>
      change Twins w calm low .blind ((entry :: rest).mapM parse)
        ((carry w.names entry :: carry w.names rest).mapM besideParse)
      rw [List.mapM_cons, List.mapM_cons]
      exact .bind (each entry List.mem_cons_self) fun _ =>
        .bind (hypothesis fun other member =>
          each other (List.mem_cons_of_mem entry member))
          fun _ => .pure id trivial

end

section

variable (braced : ¬ w.plain)

include braced

theorem withScope [Carried α] {mode : Mode α} {parser beside : Parser α}
    (inner : Twins w calm low mode parser beside) :
    Twins w calm low mode (withScope parser) (withScope beside) := by
  intro inside state there within reached
  have entered : State.Within w.tokens { state with scopes := state.scopes.enter } :=
    ⟨within.same, within.cursor, within.types⟩
  have twins := inner inside _ { there with scopes := there.scopes.enter } entered reached
  have linking (linked : w.Linked state there) : w.Linked
      { state with scopes := state.scopes.enter }
      { there with scopes := there.scopes.enter } :=
    ⟨entered, linked.tokens, linked.cursor, linked.reached, linked.pos,
      congrArg Scopes.enter linked.scopes, linked.function, linked.literals,
        linked.tables,
      fun plain => absurd plain braced⟩
  cases run : parser { state with scopes := state.scopes.enter } with
  | ok value after =>
      refine .of_ok within (withScope_run run) (twins.own.added value after run).rescope
        (twins.own.gives value after run) (twins.own.passes value after run)
          fun linked near => ?_
      rcases twins.agrees (linking linked) value after run near with
        ⟨last, gaveUp⟩ | ⟨beyond, alsoRun, behind⟩
      · exact .inl ⟨_, withScope_fail gaveUp⟩
      · refine .inr ⟨_, withScope_run alsoRun,
          ⟨behind.within.same, behind.within.cursor, behind.within.types⟩, behind.tokens,
          behind.cursor, behind.reached, behind.pos, ?_, behind.function, behind.literals,
          behind.tables, fun plain => absurd plain braced⟩
        exact (congrArg Scopes.leave behind.scopes).trans (Scopes.carry_leave _ _).symm
  | error error after =>
      refine .of_error within (withScope_fail run) fun linked whole differs => ?_
      obtain ⟨also, beyond, alsoFailed⟩ :=
        twins.fails (linking linked) whole error after run differs
      exact ⟨also, _, withScope_fail alsoFailed⟩

/-- A change of scopes, or of what is known of the function being parsed, that does not
touch its locals. -/
theorem modify {change also : State -> State}
    (same : ∀ state, (change state).tokens = state.tokens ∧
      (change state).program = state.program ∧ (change state).pos = state.pos ∧
        (change state).literals = state.literals ∧ (change state).locals ⊆ state.locals)
    (alike : ∀ state there, w.Linked state there ->
      (also there).tokens = there.tokens ∧ (also there).program = there.program ∧
        (also there).pos = there.pos ∧ (also there).literals = there.literals ∧
          (also there).scopes = carry w.names (change state).scopes ∧
            (also there).function = carry w.names (change state).function) :
    Twins w calm low .blind (modify change) (modify also) := by
  intro inside state there within reached
  obtain ⟨tokens, program, pos, literals, locals⟩ := same state
  have added := Added.of_program_eq within tokens program pos literals locals
  refine .of_ok within rfl added trivial (fun never => never.elim) fun linked _ => ?_
  obtain ⟨alsoTokens, alsoProgram, alsoPos, alsoLiterals, scopes, function⟩ :=
    alike state there linked
  refine .inr ⟨_, rfl, added.within, alsoTokens.trans linked.tokens, ?_, ?_, ?_,
    scopes, function, ?_, ?_, fun plain => absurd plain braced⟩
  · exact alsoPos ▸ linked.cursor
  · exact pos ▸ linked.reached
  · exact alsoPos ▸ pos ▸ linked.pos
  · rw [alsoLiterals, literals, linked.literals]
  · rw [alsoProgram, program]
    exact linked.tables

theorem modifyScopes {change also : Scopes -> Scopes}
    (alike : ∀ scopes, also (carry w.names scopes) = carry w.names (change scopes)) :
    Twins w calm low .blind (modifyScopes change) (modifyScopes also) :=
  .modify braced (fun _ => ⟨rfl, rfl, rfl, rfl, List.Subset.refl _⟩)
    fun state there linked => ⟨rfl, rfl, rfl, rfl, by
      change also there.scopes = _
      rw [linked.scopes]
      exact alike _, linked.function⟩

/-- What is known of the function being parsed may change, but for its locals. -/
theorem modifyFunction {change also : FunctionContext -> FunctionContext}
    (locals : ∀ function, (change function).locals = function.locals)
    (alike : ∀ function, also (carry w.names function) = carry w.names
      (change function)) :
    Twins w calm low .blind (modifyFunction change) (modifyFunction also) := by
  refine .modify braced (fun state => ⟨rfl, rfl, rfl, rfl, ?_⟩) fun state there linked =>
    ⟨rfl, rfl, rfl, rfl, linked.scopes, ?_⟩
  · unfold State.locals
    cases known : state.function with
    | none => simp
    | some function => simp [locals]
  · change there.function.map also = _
    rw [linked.function]
    cases state.function with
    | none => rfl
    | some function => exact congrArg some (alike function)

end
end Twins
end Grammar
end MiniC
