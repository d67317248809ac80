import MiniC.Proofs.Grammar.Spans
import MiniC.Proofs.Program.Places

/-!
# Parsing two token streams beside each other

A comparison takes a stream of tokens and another one that shows the same tokens, at other
offsets, up to the end of the first; behind that it may go on.  `Follows` says that what a
parser makes of the first stream a parser beside it makes of the other.  That needs care
where the first stream ends: a run that has looked at the token at its end may have looked
at the end of the stream, and what the other stream shows there is open.  So a mode tells
of each result whether the cursor has passed a token, and whether nothing but tokens that
were passed has been looked at.

A run is followed from one state to another if its tables are added to as
`MiniC.Proofs.Grammar.Additions` says.
-/

namespace MiniC
namespace Grammar

/-! ## Two streams -/

/-- A stream of tokens and another that shows the same tokens up to the end of the first,
at offsets given by `place`.  If `whole`, the other ends there as well. -/
structure Comparison where
  tokens : TokenStream
  other : TokenStream
  place : Nat -> Nat
  whole : Prop
  sound : tokens.Sound
  alike : ∀ index, whole ∨ index < tokens.last ->
    other.get index = (tokens.get index).relocate place
  last_le : tokens.last ≤ other.last
  last_eq : whole -> other.last = tokens.last

namespace Comparison

variable (c : Comparison)

/-- Whether both streams show the same token at an index. -/
def Shown (index : Nat) : Prop := c.whole ∨ index < c.tokens.last

/-- The state beside a state. -/
def view (state : State) : State :=
  { state with tokens := c.other, program := state.program.relocate c.place }

variable {c} {state : State} {index : Nat}

@[simp] theorem view_pos (state : State) : (c.view state).pos = state.pos := rfl

@[simp] theorem view_scopes (state : State) : (c.view state).scopes = state.scopes := rfl

@[simp] theorem view_function (state : State) :
    (c.view state).function = state.function := rfl

@[simp] theorem view_tokens (state : State) : (c.view state).tokens = c.other := rfl

@[simp] theorem view_program (state : State) :
    (c.view state).program = state.program.relocate c.place :=
  rfl

theorem Shown.mono {earlier : Nat} (shown : c.Shown index) (before : earlier ≤ index) :
    c.Shown earlier := by
  rcases shown with whole | further
  · exact .inl whole
  · exact .inr (Nat.lt_of_le_of_lt before further)

theorem Shown.token (shown : c.Shown index) (own : state.tokens = c.tokens) :
    (c.view state).token index = (state.token index).relocate c.place := by
  unfold State.token
  rw [view_tokens, own]
  exact c.alike index shown

theorem Shown.seesAt (shown : c.Shown index) (own : state.tokens = c.tokens)
    (symbol : String) : (c.view state).seesAt index symbol =
      state.seesAt index symbol := by
  unfold State.seesAt
  rw [shown.token own, Token.relocate_isSymbol]

theorem Shown.sees (shown : c.Shown state.pos) (own : state.tokens = c.tokens)
    (symbol : String) : (c.view state).sees symbol = state.sees symbol :=
  shown.seesAt own symbol

theorem Shown.current (shown : c.Shown state.pos) (own : state.tokens = c.tokens) :
    (c.view state).current = state.current.relocate c.place :=
  shown.token own

theorem Shown.typedefAt? (shown : c.Shown index) (own : state.tokens = c.tokens) :
    (c.view state).typedefAt? index = state.typedefAt? index := by
  unfold State.typedefAt?
  rw [shown.token own]
  rfl

theorem Shown.startsType (shown : c.Shown index) (own : state.tokens = c.tokens) :
    (c.view state).startsType index = state.startsType index := by
  have same : (c.view state).seesAt index = state.seesAt index := by
    funext symbol
    exact shown.seesAt own symbol
  unfold State.startsType
  rw [same, shown.typedefAt? own]

theorem Shown.startsParameters (shown : c.Shown index) (own : state.tokens = c.tokens) :
    (c.view state).startsParameters index = state.startsParameters index := by
  unfold State.startsParameters
  rw [shown.seesAt own, shown.startsType own]

theorem Shown.startsLabel (shown : c.Shown (state.pos + 1))
    (own : state.tokens = c.tokens) :
    (c.view state).startsLabel = state.startsLabel := by
  unfold State.startsLabel
  rw [view_pos, (shown.mono (Nat.le_succ _)).current own, Token.relocate_isIdentifier,
    shown.seesAt own]

/-- An identifier is shown. -/
theorem lt_last_of_identifier (identifier : (c.tokens.get index).isIdentifier = true) :
    index < c.tokens.last :=
  c.sound.lt_last (kind_ne_eof_of_isIdentifier identifier)

end Comparison

/-! ## Modes -/

/-- What is known of a result of a parser: that the cursor has passed a token, that no
token was looked at but those that the cursor has passed, and a property of the result. -/
structure Mode (α : Type) where
  passes : α -> Prop
  inside : α -> Prop
  gives : α -> Prop

namespace Mode

variable {α β σ : Type}

/-- The token at the end may have been looked at. -/
def peeking : Mode α := ⟨fun _ => False, fun _ => False, fun _ => True⟩

/-- A token was passed, and the one at the end may have been looked at. -/
def passing : Mode α := ⟨fun _ => True, fun _ => False, fun _ => True⟩

/-- A token was passed, and no other was looked at. -/
def closing : Mode α := ⟨fun _ => True, fun _ => True, fun _ => True⟩

/-- No token was looked at but those that were passed, if any. -/
def blind : Mode α := ⟨fun _ => False, fun _ => True, fun _ => True⟩

/-- The mode with another property of the result. -/
def giving (mode : Mode α) (gives : α -> Prop) : Mode α := { mode with gives := gives }

/-- What remains to be shown behind a token that was passed. -/
def landed (mode : Mode α) : Mode α := { mode with passes := fun _ => False }

/-- What remains to be shown behind tokens that were passed, if the next one may have been
looked at. -/
def pushed (mode : Mode α) : Mode α := { mode with passes := mode.inside }

/-- The mode of the rounds of a loop. -/
def round (holds : σ -> Prop) (mode : Mode α) : Mode (Round σ α) where
  passes
    | .again _ => False
    | .done value => mode.passes value
  inside
    | .again _ => False
    | .done value => mode.inside value
  gives
    | .again next => holds next
    | .done value => mode.gives value

/-- The token at the end may have been looked at whatever the result is. -/
class Open (mode : Mode α) : Prop where
  not_inside : ∀ value, ¬ mode.inside value

instance : Open (peeking : Mode α) := ⟨fun _ => id⟩

instance : Open (passing : Mode α) := ⟨fun _ => id⟩

instance (mode : Mode α) [unsure : mode.Open] (gives : α -> Prop) :
    Open (mode.giving gives) :=
  ⟨unsure.not_inside⟩

instance (mode : Mode α) [unsure : mode.Open] : Open mode.landed := ⟨unsure.not_inside⟩

instance (mode : Mode α) [unsure : mode.Open] : Open mode.pushed := ⟨unsure.not_inside⟩

instance (holds : σ -> Prop) (mode : Mode α) [unsure : mode.Open] :
    Open (mode.round holds) where
  not_inside
    | .again _, never => never
    | .done value, inside => unsure.not_inside value inside

/-- If no token was looked at but those that were passed, then one was passed. -/
class Settled (mode : Mode α) : Prop where
  passes_of_inside : ∀ value, mode.inside value -> mode.passes value

instance (mode : Mode α) [unsure : mode.Open] : Settled mode :=
  ⟨fun value inside => (unsure.not_inside value inside).elim⟩

instance : Settled (closing : Mode α) := ⟨fun _ always => always⟩

instance (mode : Mode α) [settled : mode.Settled] (gives : α -> Prop) :
    Settled (mode.giving gives) :=
  ⟨settled.passes_of_inside⟩

instance (mode : Mode α) : Settled mode.pushed := ⟨fun _ inside => inside⟩

instance (holds : σ -> Prop) (mode : Mode α) [settled : mode.Settled] :
    Settled (mode.round holds) where
  passes_of_inside
    | .again _, never => never.elim
    | .done value, inside => settled.passes_of_inside value inside

/-- A mode that says no more than another. -/
structure Weaker (weak strong : Mode α) : Prop where
  passes : ∀ value, weak.passes value -> strong.passes value
  inside : ∀ value, weak.inside value -> strong.inside value
  gives : ∀ value, strong.gives value -> weak.gives value

/-- The mode of a parser behind another one that has given a value. -/
structure Behind (first : Mode α) (value : α) (second joint : Mode β) : Prop where
  passes : ∀ result, second.gives result -> joint.passes result ->
    first.passes value ∨ second.passes result
  inside : ∀ result, second.gives result -> joint.inside result ->
    second.inside result ∧ (first.inside value ∨ second.passes result)
  gives : ∀ result, second.gives result -> joint.gives result

end Mode

/-! ## Following -/

variable {c : Comparison} {state : State} {low : Nat} {α β σ : Type}

/-- From a state a parser is followed by the parser beside it. -/
structure FollowsAt {α : Type} (c : Comparison) (state : State) (mode : Mode α)
    (parser beside : Parser α) : Prop where
  added : ∀ value after, parser state = .ok value after -> Added c.tokens state after
  gives : ∀ value after, parser state = .ok value after -> mode.gives value
  passes : ∀ value after, parser state = .ok value after -> mode.passes value ->
    state.pos < after.pos
  agrees : ∀ value after, parser state = .ok value after ->
    c.whole ∨ mode.inside value ∨ after.pos < c.tokens.last ->
      beside (c.view state) = .ok value (c.view after)
  fails : c.whole -> ∀ error after, parser state = .error error after ->
    ∃ last, beside (c.view state) = .error (error.relocate c.place) last

/-- A parser is followed by the parser beside it from every state that has come as far as
a given index. -/
def Follows {α : Type} (c : Comparison) (low : Nat) (mode : Mode α)
    (parser beside : Parser α) : Prop :=
  ∀ state, state.Within c.tokens -> low ≤ state.pos ->
    FollowsAt c state mode parser beside

namespace FollowsAt

variable {mode weak : Mode α} {first : Mode α} {joint : Mode β} {second : α -> Mode β}
  {parser beside : Parser α} {rest behind : α -> Parser β}

theorem weaken (follows : FollowsAt c state mode parser beside)
    (weaker : weak.Weaker mode) :
    FollowsAt c state weak parser beside where
  added := follows.added
  gives := fun value after run => weaker.gives value (follows.gives value after run)
  passes := fun value after run passes =>
    follows.passes value after run (weaker.passes value passes)
  agrees := fun value after run near =>
    follows.agrees value after run (near.imp_right (.imp_left (weaker.inside value)))
  fails := follows.fails

/-- A parser that fails in the same way. -/
theorem of_error {error : Error} {after : State}
    (failed : parser state = .error error after)
    (alike : c.whole -> ∃ last,
      beside (c.view state) = .error (error.relocate c.place) last) :
    FollowsAt c state mode parser beside where
  added := fun value after run => by cases failed.symm.trans run
  gives := fun value after run => by cases failed.symm.trans run
  passes := fun value after run => by cases failed.symm.trans run
  agrees := fun value after run => by cases failed.symm.trans run
  fails := by
    intro whole other reached run
    cases failed.symm.trans run
    exact alike whole

/-- A parser whose run is known, and so is that of the parser beside it. -/
theorem of_ok {value : α} {after : State}
    (run : parser state = .ok value after)
    (added : Added c.tokens state after)
    (gives : mode.gives value)
    (passes : mode.passes value -> state.pos < after.pos)
    (agrees : c.whole ∨ mode.inside value ∨ after.pos < c.tokens.last ->
      beside (c.view state) = .ok value (c.view after)) :
    FollowsAt c state mode parser beside where
  added := by
    intro other reached same
    cases run.symm.trans same
    exact added
  gives := by
    intro other reached same
    cases run.symm.trans same
    exact gives
  passes := by
    intro other reached same
    cases run.symm.trans same
    exact passes
  agrees := by
    intro other reached same
    cases run.symm.trans same
    exact agrees
  fails := by
    intro _ error reached same
    cases run.symm.trans same

/-- Only the run from the state counts. -/
theorem congr {other otherBeside : Parser α}
    (sameRun : parser state = other state)
    (sameBeside : beside (c.view state) = otherBeside (c.view state))
    (follows : FollowsAt c state mode other otherBeside) :
    FollowsAt c state mode parser beside where
  added := fun value after run => follows.added value after (sameRun ▸ run)
  gives := fun value after run => follows.gives value after (sameRun ▸ run)
  passes := fun value after run => follows.passes value after (sameRun ▸ run)
  agrees := fun value after run near =>
    sameBeside.trans (follows.agrees value after (sameRun ▸ run) near)
  fails := by
    intro whole error after run
    rw [sameBeside]
    exact follows.fails whole error after (sameRun ▸ run)

/-- A parser that passes a token, and then goes on as another. -/
theorem behind_token {other otherBeside : Parser α}
    (within : state.Within c.tokens)
    (further : state.pos < c.tokens.last)
    (plain : state.current.kind.string? = none)
    (run : parser state = other state.next)
    (runBeside : beside (c.view state) = otherBeside (c.view state.next))
    (follows : FollowsAt c state.next mode.landed other otherBeside) :
    FollowsAt c state mode parser beside where
  added := by
    intro value after reached
    rw [State.current, State.token, within.same] at plain
    exact (Added.next within further plain).trans
      (follows.added value after (run ▸ reached))
  gives := fun value after reached => follows.gives value after (run ▸ reached)
  passes := fun value after reached _ =>
    (follows.added value after (run ▸ reached)).forward
  agrees := fun value after reached near =>
    runBeside.trans (follows.agrees value after (run ▸ reached) near)
  fails := by
    intro whole error after reached
    rw [runBeside]
    exact follows.fails whole error after (run ▸ reached)

/-- One parser behind another. -/
theorem bind
    (one : FollowsAt c state first parser beside)
    (other : ∀ value after, parser state = .ok value after ->
      Added c.tokens state after ->
      first.gives value -> (first.passes value -> state.pos < after.pos) ->
        FollowsAt c after (second value) (rest value) (behind value))
    (modes : ∀ value, first.gives value -> first.Behind value (second value) joint) :
    FollowsAt c state joint (parser >>= rest) (beside >>= behind) := by
  have step {value : α} {middle : State} (run : parser state = .ok value middle) :=
    other value middle run (one.added value middle run) (one.gives value middle run)
      (one.passes value middle run)
  have mode {value : α} {middle : State} (run : parser state = .ok value middle) :=
    modes value (one.gives value middle run)
  constructor
  · intro result after run
    obtain ⟨value, middle, firstRun, secondRun⟩ := bind_ok run
    exact (one.added value middle firstRun).trans
      ((step firstRun).added result after secondRun)
  · intro result after run
    obtain ⟨value, middle, firstRun, secondRun⟩ := bind_ok run
    exact (mode firstRun).gives result ((step firstRun).gives result after secondRun)
  · intro result after run passes
    obtain ⟨value, middle, firstRun, secondRun⟩ := bind_ok run
    have given := (step firstRun).gives result after secondRun
    have firstForward := (one.added value middle firstRun).forward
    have secondForward := ((step firstRun).added result after secondRun).forward
    rcases (mode firstRun).passes result given passes with firstPasses | secondPasses
    · have := one.passes value middle firstRun firstPasses
      omega
    · have := (step firstRun).passes result after secondRun secondPasses
      omega
  · intro result after run near
    obtain ⟨value, middle, firstRun, secondRun⟩ := bind_ok run
    have given := (step firstRun).gives result after secondRun
    have added := (step firstRun).added result after secondRun
    have secondNear :
        c.whole ∨ (second value).inside result ∨ after.pos < c.tokens.last :=
      near.imp_right (.imp_left fun inside =>
        ((mode firstRun).inside result given inside).1)
    have firstNear : c.whole ∨ first.inside value ∨ middle.pos < c.tokens.last := by
      rcases near with whole | inside | further
      · exact .inl whole
      · rcases ((mode firstRun).inside result given
          inside).2 with firstInside | secondPasses
        · exact .inr (.inl firstInside)
        · have passed := (step firstRun).passes result after secondRun secondPasses
          exact .inr (.inr (Nat.lt_of_lt_of_le passed added.within.cursor))
      · exact .inr (.inr (Nat.lt_of_le_of_lt added.forward further))
    rw [bind_run (one.agrees value middle firstRun firstNear)]
    exact (step firstRun).agrees result after secondRun secondNear
  · intro whole error after run
    cases known : parser state with
    | ok value middle =>
        rw [bind_run known] at run
        rw [bind_run (one.agrees value middle known (.inl whole))]
        exact (step known).fails whole error after run
    | error own middle =>
        obtain ⟨last, failed⟩ := one.fails whole own middle known
        rw [bind_fail known] at run
        cases run
        exact ⟨last, bind_fail failed⟩

/-- The parser beside may run differently if the token at the cursor is not shown to
it. -/
theorem here_run {other : Parser α} [settled : mode.Settled]
    (same : c.Shown state.pos -> other (c.view state) = beside (c.view state))
    (follows : FollowsAt c state mode parser beside) :
    FollowsAt c state mode parser other where
  added := follows.added
  gives := follows.gives
  passes := follows.passes
  agrees := by
    intro value after run near
    have added := follows.added value after run
    have shown : c.Shown state.pos := by
      rcases near with whole | inside | further
      · exact .inl whole
      · have passed :=
          follows.passes value after run (settled.passes_of_inside value inside)
        exact .inr (Nat.lt_of_lt_of_le passed added.within.cursor)
      · exact .inr (Nat.lt_of_le_of_lt added.forward further)
    rw [same shown]
    exact follows.agrees value after run near
  fails := by
    intro whole error after run
    rw [same (.inl whole)]
    exact follows.fails whole error after run

/-- The parser beside may read the token at the cursor. -/
theorem here {other : Parser α} [mode.Settled]
    (same : c.Shown state.pos -> other = beside)
    (follows : FollowsAt c state mode parser beside) :
    FollowsAt c state mode parser other :=
  .here_run (fun shown => congrFun (same shown) _) follows

/-- The parser beside may read the token behind the one at the cursor, if that one is
passed. -/
theorem ahead {other : Parser α} {gives : α -> Prop}
    (same : c.Shown (state.pos + 1) -> other = beside)
    (follows : FollowsAt c state (.giving .passing gives) parser beside) :
    FollowsAt c state (.giving .passing gives) parser other where
  added := follows.added
  gives := follows.gives
  passes := follows.passes
  agrees := by
    intro value after run near
    have passed := follows.passes value after run trivial
    have shown : c.Shown (state.pos + 1) := by
      rcases near with whole | inside | further
      · exact .inl whole
      · exact inside.elim
      · exact .inr (Nat.lt_of_le_of_lt passed further)
    rw [same shown]
    exact follows.agrees value after run near
  fails := by
    intro whole error after run
    rw [same (.inl whole)]
    exact follows.fails whole error after run

theorem ite {condition : Prop} [Decidable condition]
    {left right besideLeft besideRight : Parser α}
    (first : condition -> FollowsAt c state mode left besideLeft)
    (second : ¬ condition -> FollowsAt c state mode right besideRight) :
    FollowsAt c state mode (if condition then left else right)
      (if condition then besideLeft else besideRight) := by
  by_cases holds : condition
  · rw [if_pos holds, if_pos holds]
    exact first holds
  · rw [if_neg holds, if_neg holds]
    exact second holds

/-- A parser that looks at no token, in front of another. -/
theorem blind {gives : α -> Prop} {mode : Mode β}
    (one : FollowsAt c state (.giving .blind gives) parser beside)
    (other : ∀ value after, parser state = .ok value after ->
      Added c.tokens state after ->
      gives value -> FollowsAt c after mode (rest value) (behind value)) :
    FollowsAt c state mode (parser >>= rest) (beside >>= behind) :=
  one.bind (fun value after run added given _ => other value after run added given)
    fun _ _ => ⟨fun _ _ => .inr, fun _ _ inside => ⟨inside, .inl trivial⟩, fun _ => id⟩

/-- A parser that may look at the token at its end, in front of another. -/
theorem peek {gives : α -> Prop} {mode : Mode β} [settled : mode.Settled]
    (one : FollowsAt c state (.giving .peeking gives) parser beside)
    (other : ∀ value after, parser state = .ok value after ->
      Added c.tokens state after ->
      gives value -> FollowsAt c after mode (rest value) (behind value)) :
    FollowsAt c state mode (parser >>= rest) (beside >>= behind) :=
  one.bind (fun value after run added given _ => other value after run added given)
    fun _ _ => ⟨fun _ _ => .inr,
      fun result _ inside => ⟨inside, .inr (settled.passes_of_inside result inside)⟩,
        fun _ => id⟩

/-- A parser that passes a token, in front of another. -/
theorem lead {gives : α -> Prop} {mode : Mode β}
    (one : FollowsAt c state (.giving .passing gives) parser beside)
    (other : ∀ value, gives value -> Follows c (state.pos + 1) mode.pushed (rest value)
      (behind value)) :
    FollowsAt c state mode (parser >>= rest) (beside >>= behind) :=
  one.bind (fun value after _ added given passes =>
      other value given after added.within (passes trivial)) fun _ _ =>
    ⟨fun _ _ _ => .inl trivial, fun _ _ inside => ⟨inside, .inr inside⟩, fun _ => id⟩

/-- A parser that passes a token and looks at no other, in front of another. -/
theorem close {gives : α -> Prop} {mode : Mode β}
    (one : FollowsAt c state (.giving .closing gives) parser beside)
    (other : ∀ value, gives value -> Follows c (state.pos + 1) mode.landed (rest value)
      (behind value)) :
    FollowsAt c state mode (parser >>= rest) (beside >>= behind) :=
  one.bind (fun value after _ added given passes =>
      other value given after added.within (passes trivial)) fun _ _ =>
    ⟨fun _ _ _ => .inl trivial, fun _ _ inside => ⟨inside, .inl trivial⟩, fun _ => id⟩

/-- A parser behind another one that neither reads tokens nor moves the cursor.  What it
does to the tables adds to those before the two. -/
theorem settle {mode : Mode α} {joint : Mode β}
    (one : FollowsAt c state mode parser beside)
    (other : ∀ value after, parser state = .ok value after ->
      Added c.tokens state after -> mode.gives value ->
        (∃ result last, rest value after = .ok result last ∧
          behind value (c.view after) = .ok result (c.view last) ∧
          Added c.tokens state last ∧ last.pos = after.pos ∧
          (joint.passes result -> mode.passes value) ∧
          (joint.inside result -> mode.inside value) ∧ joint.gives result) ∨
        ∃ error last, rest value after = .error error last ∧
          (c.whole -> ∃ end_, behind value (c.view after) = .error
            (error.relocate c.place) end_)) :
    FollowsAt c state joint (parser >>= rest) (beside >>= behind) := by
  cases run : parser state with
  | error error after =>
      refine .of_error (bind_fail run) fun whole => ?_
      obtain ⟨last, failed⟩ := one.fails whole error after run
      exact ⟨last, bind_fail failed⟩
  | ok value after =>
      have added := one.added value after run
      rcases other value after run added (one.gives value after run) with
        ⟨result, last, ran, alsoRan, reached, stays, passes, inside, gives⟩ |
          ⟨error, last, failed, alsoFails⟩
      · refine .of_ok ((bind_run run).trans ran) reached gives ?_ ?_
        · intro passing
          rw [stays]
          exact one.passes value after run (passes passing)
        · intro near
          rw [stays] at near
          have agreed := one.agrees value after run (near.imp_right (.imp_left inside))
          exact (bind_run agreed).trans alsoRan
      · refine .of_error ((bind_run run).trans failed) fun whole => ?_
        obtain ⟨end_, alsoFailed⟩ := alsoFails whole
        exact ⟨end_,
          (bind_run (one.agrees value after run (.inl whole))).trans alsoFailed⟩

end FollowsAt

namespace Follows

variable {mode weak : Mode α} {parser beside : Parser α} {rest behind : α -> Parser β}

theorem weaken (follows : Follows c low mode parser beside) (weaker : weak.Weaker mode) :
    Follows c low weak parser beside :=
  fun state within reached => (follows state within reached).weaken weaker

/-- A parser that passes a token may be used where none has to be passed. -/
theorem loose (follows : Follows c low .passing parser beside) :
    Follows c low .peeking parser beside :=
  follows.weaken ⟨fun _ never => never.elim, fun _ => id, fun _ => id⟩

theorem of_closing (follows : Follows c low .closing parser beside) :
    Follows c low .passing parser beside :=
  fun state within reached => (follows state within reached).weaken
    ⟨fun _ => id, fun _ never => never.elim, fun _ => id⟩

theorem of_blind (follows : Follows c low .blind parser beside) :
    Follows c low .peeking parser beside :=
  follows.weaken ⟨fun _ => id, fun _ never => never.elim, fun _ => id⟩

theorem mono {earlier : Nat} (follows : Follows c earlier mode parser beside)
    (before : earlier ≤ low) : Follows c low mode parser beside :=
  fun state within reached => follows state within (Nat.le_trans before reached)

/-! ### One parser behind another -/

theorem bind_gives {gives : α -> Prop} {mode : Mode β}
    (one : Follows c low (.giving .blind gives) parser beside)
    (other : ∀ value, gives value -> Follows c low mode (rest value) (behind value)) :
    Follows c low mode (parser >>= rest) (beside >>= behind) :=
  fun state within reached => (one state within reached).blind
    fun value after _ added given =>
    other value given after added.within (Nat.le_trans reached added.forward)

theorem bind {mode : Mode β} (one : Follows c low .blind parser beside)
    (other : ∀ value, Follows c low mode (rest value) (behind value)) :
    Follows c low mode (parser >>= rest) (beside >>= behind) :=
  .bind_gives one fun value _ => other value

theorem peek_gives {gives : α -> Prop} {mode : Mode β} [mode.Settled]
    (one : Follows c low (.giving .peeking gives) parser beside)
    (other : ∀ value, gives value -> Follows c low mode (rest value) (behind value)) :
    Follows c low mode (parser >>= rest) (beside >>= behind) :=
  fun state within reached => (one state within reached).peek
    fun value after _ added given =>
    other value given after added.within (Nat.le_trans reached added.forward)

theorem peek {mode : Mode β} [mode.Settled] (one : Follows c low .peeking parser beside)
    (other : ∀ value, Follows c low mode (rest value) (behind value)) :
    Follows c low mode (parser >>= rest) (beside >>= behind) :=
  .peek_gives one fun value _ => other value

theorem lead {mode : Mode β} (one : Follows c low .passing parser beside)
    (other : ∀ value, Follows c (low + 1) mode.pushed (rest value) (behind value)) :
    Follows c low mode (parser >>= rest) (beside >>= behind) :=
  fun state within reached =>
    @FollowsAt.lead _ _ _ _ _ _ _ _ (fun _ => True) _ (one state within reached)
      fun value _ => (other value).mono (Nat.succ_le_succ reached)

theorem close_gives {gives : α -> Prop} {mode : Mode β}
    (one : Follows c low (.giving .closing gives) parser beside)
    (other : ∀ value, gives value -> Follows c (low + 1) mode.landed (rest value)
      (behind value)) :
    Follows c low mode (parser >>= rest) (beside >>= behind) :=
  fun state within reached => (one state within reached).close fun value given =>
    (other value given).mono (Nat.succ_le_succ reached)

theorem close {mode : Mode β} (one : Follows c low .closing parser beside)
    (other : ∀ value, Follows c (low + 1) mode.landed (rest value) (behind value)) :
    Follows c low mode (parser >>= rest) (beside >>= behind) :=
  .close_gives one fun value _ => other value

/-! ### Parsers that read the state -/

theorem get_bind {mode : Mode β} {rest behind : State -> Parser β}
    (other : ∀ state, state.Within c.tokens -> low ≤ state.pos ->
      FollowsAt c state mode (rest state) (behind (c.view state))) :
    Follows c low mode (get >>= rest) (get >>= behind) :=
  fun state within reached => by
    have follows := other state within reached
    exact ⟨follows.added, follows.gives, follows.passes, follows.agrees, follows.fails⟩

theorem position_bind {mode : Mode β} {rest behind : Nat -> Parser β}
    (other : ∀ tok, low ≤ tok -> Follows c tok mode (rest tok) (behind tok)) :
    Follows c low mode (position >>= rest) (position >>= behind) :=
  fun state within reached => by
    have follows := other state.pos reached state within (Nat.le_refl _)
    exact ⟨follows.added, follows.gives, follows.passes, follows.agrees, follows.fails⟩

/-! ### Parsers that end at once -/

theorem pure {value : α} (stays : ¬ mode.passes value) (given : mode.gives value) :
    Follows c low mode (Pure.pure value) (Pure.pure value) :=
  fun _ within _ => .of_ok rfl (.refl within) given
    (fun passes => absurd passes stays) fun _ => rfl

theorem throw {error : Error} (same : error.relocate c.place = error) :
    Follows c low mode (throw error) (throw error) :=
  fun state _ _ => .of_error rfl fun _ => ⟨c.view state, by rw [same]; rfl⟩

theorem failAt (index : Nat) (cause : Cause) :
    Follows c low mode (failAt index cause) (failAt index cause) := by
  intro state within reached
  refine .of_error rfl fun whole => ⟨c.view state, ?_⟩
  have shown : (c.view state).token index = (state.token index).relocate c.place :=
    Comparison.Shown.token (.inl whole) within.same
  change EStateM.Result.error
    (Error.rejected cause ((c.view state).token index).loc) _ = _
  rw [shown]
  rfl

theorem failHere (cause : Cause) : Follows c low mode (failHere cause) (failHere cause) :=
  .get_bind fun state within reached => failAt state.pos cause state within reached

theorem query {read : Program -> Except Error α}
    (same : ∀ program, read (program.relocate c.place) = read program)
    (unlocated : ∀ program, Program.Unlocated c.place (read program)) :
    Follows c low .blind (query read) (query read) := by
  intro state within reached
  have run : Grammar.query read state = ofExcept (read state.program) state := rfl
  have other :
      Grammar.query read (c.view state) =
        ofExcept (read state.program) (c.view state) := by
    rw [← same state.program]
    rfl
  cases known : read state.program with
  | ok value =>
      rw [known] at run other
      exact .of_ok run (.refl within) trivial (fun never => never.elim) fun _ => other
  | error error =>
      rw [known] at run other
      exact .of_error run fun _ =>
        ⟨c.view state, by rw [other, unlocated state.program error known]; rfl⟩

/-! ### Choices -/

theorem ite {condition : Prop} [Decidable condition]
    {left right besideLeft besideRight : Parser α}
    (first : Follows c low mode left besideLeft)
    (second : Follows c low mode right besideRight) :
    Follows c low mode (if condition then left else right)
      (if condition then besideLeft else besideRight) :=
  fun state within reached =>
    .ite (fun _ => first state within reached) fun _ => second state within reached

/-- A check in front of a parser. -/
theorem first_if {condition : Prop} [Decidable condition] {parser beside : Parser Unit}
    {rest behind : Unit -> Parser β} {mode : Mode β}
    (first : Follows c low .blind parser beside)
    (second : ∀ value, Follows c low mode (rest value) (behind value)) :
    Follows c low mode (if condition then parser >>= rest else rest ())
      (if condition then beside >>= behind else behind ()) :=
  .ite (.bind first second) (second ())

/-- A check the other way round in front of a parser. -/
theorem first_unless {condition : Prop} [Decidable condition]
    {parser beside : Parser Unit} {rest behind : Unit -> Parser β} {mode : Mode β}
    (first : Follows c low .blind parser beside)
    (second : ∀ value, Follows c low mode (rest value) (behind value)) :
    Follows c low mode (if condition then rest () else parser >>= rest)
      (if condition then behind () else beside >>= behind) :=
  .ite (second ()) (.bind first second)

/-- A separator in front of a parser, but not in front of the first. -/
theorem separated {condition : Prop} [Decidable condition] {parser beside : Parser Unit}
    {rest behind : Unit -> Parser β} {mode : Mode β} [mode.Settled]
    (first : Follows c low .closing parser beside)
    (second : ∀ value, Follows c low mode (rest value) (behind value)) :
    Follows c low mode (if condition then rest () else parser >>= rest)
      (if condition then behind () else beside >>= behind) :=
  .ite (second ()) (.peek first.of_closing.loose second)

/-! ### The cursor -/

/-- The state behind a token. -/
theorem next_within (within : state.Within c.tokens)
    (further : state.pos < c.tokens.last) :
    state.next.Within c.tokens :=
  ⟨within.same, further, within.types⟩

end Follows

/-- A symbol is consumed, or another parser goes on. -/
theorem FollowsAt.accept {symbol : String} {yes no besideYes besideNo : Parser α}
    {mode : Mode α} [mode.Settled]
    (within : state.Within c.tokens)
    (first : Follows c (state.pos + 1) mode.landed yes besideYes)
    (second : FollowsAt c state mode no besideNo) :
    FollowsAt c state mode (do if ← Grammar.accept symbol then yes else no)
      (do if ← Grammar.accept symbol then besideYes else besideNo) := by
  by_cases here : state.sees symbol = true
  · have further : state.pos < c.tokens.last :=
      lt_last c.sound.ended within.same (kind_ne_eof_of_isSymbol here)
    have beside : (c.view state).sees symbol = true := by
      rw [Comparison.Shown.sees (.inr further) within.same]
      exact here
    exact .behind_token within further (Token.string?_of_isSymbol here) (accept_then here)
      (accept_then beside) (first state.next (Follows.next_within within further)
        (Nat.le_refl _))
  · have other : state.sees symbol = false := by simpa using here
    refine .congr (accept_else other) rfl (.here_run (fun shown => ?_) second)
    rw [← shown.sees within.same] at other
    exact accept_else other

/-- A parser that passes a token and looks at no other may be used where others may be
looked at. -/
theorem FollowsAt.of_closing {parser beside : Parser α}
    (follows : FollowsAt c state .closing parser beside) :
    FollowsAt c state .passing parser beside :=
  follows.weaken ⟨fun _ => id, fun _ never => never.elim, fun _ => id⟩

/-- A parser that reads the cursor first. -/
theorem FollowsAt.position_bind {mode : Mode α} {rest behind : Nat -> Parser α}
    (follows : FollowsAt c state mode (rest state.pos) (behind state.pos)) :
    FollowsAt c state mode (position >>= rest) (position >>= behind) :=
  ⟨follows.added, follows.gives, follows.passes, follows.agrees, follows.fails⟩

/-- A parser that reads the state first. -/
theorem FollowsAt.get_bind {mode : Mode α} {rest behind : State -> Parser α}
    (follows : FollowsAt c state mode (rest state) (behind (c.view state))) :
    FollowsAt c state mode (get >>= rest) (get >>= behind) :=
  ⟨follows.added, follows.gives, follows.passes, follows.agrees, follows.fails⟩

/-- The source text is rejected, whatever would follow. -/
theorem FollowsAt.rejects {mode : Mode β} {rest behind : α -> Parser β}
    (within : state.Within c.tokens) (cause : Cause) :
    FollowsAt c state mode (failHere cause >>= rest) (failHere cause >>= behind) :=
  @FollowsAt.blind _ _ _ _ _ _ _ _ (fun _ => True) _
    (Follows.failHere cause state within (Nat.zero_le _)) fun _ _ run => by cases run

namespace Follows

variable {mode weak : Mode α} {parser beside : Parser α} {rest behind : α -> Parser β}

theorem accept {symbol : String} {yes no besideYes besideNo : Parser α} [mode.Settled]
    (first : Follows c (low + 1) mode.landed yes besideYes)
    (second : Follows c low mode no besideNo) :
    Follows c low mode (do if ← Grammar.accept symbol then yes else no)
      (do if ← Grammar.accept symbol then besideYes else besideNo) :=
  fun state within reached =>
    .accept within (first.mono (Nat.succ_le_succ reached)) (second state within reached)

theorem expect (symbol : String) :
    Follows c low .closing (expect symbol) (expect symbol) :=
  .accept (.pure id trivial) (.get_bind fun state within reached =>
    .here (fun shown => by rw [shown.current within.same, Token.relocate_describe])
      (failHere _ state within reached))

/-- An identifier is consumed together with its place. -/
theorem identifier :
    Follows c low (.giving .closing fun named =>
      (c.tokens.get named.2).isIdentifier = true)
      identifier identifier := by
  refine .get_bind fun state within reached => ?_
  refine .here (fun shown => by rw [shown.current within.same]) ?_
  refine .ite (fun here => ?_) fun _ => ?_
  · have own : (c.tokens.get state.pos).isIdentifier = true := by
      rw [← within.same]
      exact here
    have further := Comparison.lt_last_of_identifier own
    exact .behind_token within further (Token.string?_of_isIdentifier here) rfl rfl
      (Follows.pure id own state.next (next_within within further) (Nat.zero_le _))
  · exact failHere _ state within reached

/-- An identifier may stand at the cursor. -/
theorem identifier? :
    Follows c low (.giving .peeking fun found => ∀ named, found = some named ->
      (c.tokens.get named.2).isIdentifier = true) identifier? identifier? := by
  refine .get_bind fun state within reached => ?_
  refine .here (fun shown => by rw [shown.current within.same]) ?_
  refine .ite (fun here => ?_) fun _ => ?_
  · refine Follows.close_gives identifier (fun named given => .pure id ?_) state
      within reached
    rintro _ ⟨⟩
    exact given
  · exact Follows.pure id (fun _ never => by cases never) state within reached

/-- A value in range. -/
theorem negated (value : Int) : Follows c low .blind (negated value) (negated value) :=
  .ite (.pure id trivial) (.throw rfl)

theorem digits (negative : Bool) :
    Follows c low .closing (digits negative) (digits negative) := by
  refine .get_bind fun state within reached => ?_
  refine .here (fun shown => by rw [shown.current within.same, Token.relocate_kind]) ?_
  cases kind : state.current.kind with
  | num value =>
      have further : state.pos < c.tokens.last :=
        lt_last c.sound.ended within.same (by rw [kind]; exact TokenKind.noConfusion)
      have signed : Follows c low .blind
          (if negative then Grammar.negated value else Pure.pure value)
          (if negative then Grammar.negated value else Pure.pure value) :=
        .ite (.negated value) (.pure id trivial)
      exact .behind_token within further (by rw [kind]; rfl) rfl rfl
        (signed state.next (next_within within further) (Nat.le_succ_of_le reached))
  | _ => exact failHere _ state within reached

theorem number : Follows c low .closing number number := by
  rw [number_eq]
  exact .accept ((digits true).weaken
    ⟨fun _ never => never.elim, fun _ => id, fun _ => id⟩) (digits false)

end Follows

theorem withScope_fail {parser : Parser α} {error : Error} {after : State}
    (failed : parser { state with scopes := state.scopes.enter } = .error error after) :
    withScope parser state =
      .error error { after with scopes := after.scopes.leave } := by
  unfold withScope
  rw [failed]

/-- The token at the cursor is skipped, if it is no string literal. -/
theorem FollowsAt.advance (within : state.Within c.tokens)
    (further : state.pos < c.tokens.last) (plain : state.current.kind.string? = none) :
    FollowsAt c state .closing advance advance := by
  have run : Grammar.advance state = (Pure.pure () : Parser Unit) state.next :=
    advance_run (within.same ▸ further)
  have beside : Grammar.advance (c.view state) =
      (Pure.pure () : Parser Unit) (c.view state.next) :=
    advance_run (Nat.lt_of_lt_of_le further c.last_le)
  exact .behind_token within further plain run beside
    (Follows.pure id trivial state.next (Follows.next_within within further)
      (Nat.zero_le _))

namespace Follows

/-! ### Loops and scopes -/

/-- The mode of what a loop does behind a round. -/
def afterRound (mode : Mode α) : Round σ α -> Mode α
  | .again _ => mode
  | .done value => ⟨fun _ => False, fun _ => True, fun result => result = value⟩

/-- A bounded loop that is followed round by round. -/
theorem iterateFor {mode : Mode α} [settled : mode.Settled] (holds : σ -> Prop)
    {round besideRound : σ -> Parser (Round σ α)}
    (rounds : ∀ current, holds current ->
      Follows c low (mode.round holds) (round current) (besideRound current))
    (bound more : Nat)
    (enough : bound ≤ more)
    (same : c.whole -> bound = more)
    (current : σ)
    (holding : holds current) :
    Follows c low mode (iterateFor round bound current)
      (iterateFor besideRound more current) := by
  induction bound generalizing more current with
  | zero =>
      intro state within reached
      refine .of_error rfl fun whole => ⟨c.view state, ?_⟩
      rw [← same whole]
      rfl
  | succ bound hypothesis =>
      obtain ⟨more, rfl⟩ : ∃ fewer, more = fewer + 1 := ⟨more - 1, by omega⟩
      intro state within reached
      refine (rounds current holding state within reached).bind
        (fun result after _ added given _ =>
          (?_ : FollowsAt c after (afterRound mode result) _ _)) fun result given => ?_
      · cases result with
        | again next =>
            exact hypothesis more (by omega)
              (fun whole => by have := same whole; omega) next given
              after added.within (Nat.le_trans reached added.forward)
        | done value =>
            exact Follows.pure id rfl after added.within
              (Nat.le_trans reached added.forward)
      · cases result with
        | again next =>
            exact ⟨fun _ _ => .inr,
              fun value _ inside =>
                ⟨inside, .inr (settled.passes_of_inside value inside)⟩,
              fun _ => id⟩
        | done value =>
            refine ⟨?_, ?_, ?_⟩
            · rintro _ rfl passes
              exact .inl passes
            · rintro _ rfl inside
              exact ⟨trivial, .inl inside⟩
            · rintro _ rfl
              exact given

/-- A loop that is followed round by round. -/
theorem iterate {mode : Mode α} [mode.Settled] (holds : σ -> Prop) {start : σ}
    {round besideRound : σ -> Parser (Round σ α)} (begins : holds start)
    (rounds : ∀ current, holds current ->
      Follows c low (mode.round holds) (round current) (besideRound current)) :
    Follows c low mode (iterate start round) (iterate start besideRound) := by
  refine .get_bind fun state within reached => ?_
  have own : state.rounds = c.tokens.last + 2 := by
    unfold State.rounds
    rw [within.same]
  have beside : (c.view state).rounds = c.other.last + 2 := rfl
  rw [own, beside]
  refine iterateFor holds rounds _ _ ?_ ?_ start begins state within reached
  · exact Nat.add_le_add_right c.last_le 2
  · intro whole
    rw [c.last_eq whole]

theorem mapM {parse besideParse : β -> Parser α} {list : List β}
    (each : ∀ entry ∈ list, Follows c low .blind (parse entry) (besideParse entry)) :
    Follows c low .blind (list.mapM parse) (list.mapM besideParse) := by
  induction list with
  | nil => exact .pure id trivial
  | cons entry rest hypothesis =>
      rw [List.mapM_cons, List.mapM_cons]
      exact .bind (each entry List.mem_cons_self) fun _ =>
        .bind (hypothesis fun other member =>
          each other (List.mem_cons_of_mem entry member))
          fun _ => .pure id trivial

theorem withScope {mode : Mode α} {parser beside : Parser α}
    (inner : Follows c low mode parser beside) :
    Follows c low mode (withScope parser) (withScope beside) := by
  intro state within reached
  have entered : State.Within c.tokens { state with scopes := state.scopes.enter } :=
    ⟨within.same, within.cursor, within.types⟩
  have follows := inner _ entered reached
  cases run : parser { state with scopes := state.scopes.enter } with
  | ok value after =>
      exact .of_ok (withScope_run run) (follows.added value after run).rescope
        (follows.gives value after run) (follows.passes value after run) fun near => by
          have agreed : beside { c.view state with
              scopes := (c.view state).scopes.enter } =
              .ok value (c.view after) := follows.agrees value after run near
          exact withScope_run agreed
  | error error after =>
      refine .of_error (withScope_fail run) fun whole => ?_
      obtain ⟨last, failed⟩ := follows.fails whole error after run
      exact ⟨_, withScope_fail failed⟩

/-! ### Scopes and the function being parsed -/

/-- A change of what is neither token, table nor local. -/
theorem modify {change : State -> State}
    (same : ∀ state, (change state).tokens = state.tokens ∧
      (change state).program = state.program ∧ (change state).pos = state.pos ∧
        (change state).literals = state.literals ∧ (change state).locals ⊆ state.locals)
    (beside : ∀ state, change (c.view state) = c.view (change state)) :
    Follows c low .blind (modify change) (modify change) := by
  intro state within reached
  obtain ⟨tokens, program, pos, literals, locals⟩ := same state
  refine .of_ok rfl (.of_program_eq within tokens program pos literals locals) trivial
    (fun never => never.elim) fun _ => ?_
  rw [← beside state]
  rfl

theorem modifyScopes (change : Scopes -> Scopes) :
    Follows c low .blind (modifyScopes change) (modifyScopes change) :=
  .modify (fun _ => ⟨rfl, rfl, rfl, rfl, List.Subset.refl _⟩) fun _ => rfl

/-- What is known of the function being parsed may change, but for its locals. -/
theorem modifyFunction {change : FunctionContext -> FunctionContext}
    (locals : ∀ function, (change function).locals = function.locals) :
    Follows c low .blind (modifyFunction change) (modifyFunction change) := by
  refine .modify (fun state => ⟨rfl, rfl, rfl, rfl, ?_⟩) fun _ => rfl
  unfold State.locals
  cases known : state.function with
  | none => simp
  | some function => simp [locals]

end Follows
end Grammar
end MiniC
