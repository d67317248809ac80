import MiniC.Program.Frame
import MiniC.Proofs.Grammar.Spans

/-!
# Parsers that halt

`Halts tokens low gain parser beside` says of two parsers that, from every state that has
come as far as the token at `low`, they do the same, that their loops end within their
bounds, that the cursor stays among the tokens, and that a result moves it forward by at
least its gain.

The parsers are two because the productions are built over a record of productions that
they may call again.  Where two such records do the same behind a token, the productions
built over them do the same from that token on.

A loop ends because its rounds pass tokens.  The first round may pass none, so a loop has
a rank, which is at most one and falls with every round that passes none.
-/

namespace MiniC
namespace Grammar

variable {tokens : TokenStream} {state : State} {low : Nat} {α β σ : Type}

/-- A state whose cursor stands on one of the given tokens, the last of which ends
them. -/
structure State.Inside (tokens : TokenStream) (state : State) : Prop where
  ended : tokens.eof.kind = .eof
  same : state.tokens = tokens
  cursor : state.pos ≤ tokens.last

namespace State.Inside

/-- Only the tokens and the cursor count. -/
theorem keep {after : State} (inside : state.Inside tokens)
    (same : after.tokens = state.tokens)
    (pos : after.pos = state.pos) : after.Inside tokens :=
  ⟨inside.ended, same.trans inside.same, pos ▸ inside.cursor⟩

theorem next (inside : state.Inside tokens) (further : state.pos < tokens.last) :
    state.next.Inside tokens :=
  ⟨inside.ended, inside.same, further⟩

theorem lt_last_of_sees (inside : state.Inside tokens) {symbol : String}
    (here : state.sees symbol = true) : state.pos < tokens.last :=
  lt_last inside.ended inside.same (kind_ne_eof_of_isSymbol here)

theorem lt_last_of_identifier (inside : state.Inside tokens)
    (here : state.current.isIdentifier = true) : state.pos < tokens.last :=
  lt_last inside.ended inside.same (kind_ne_eof_of_isIdentifier here)

theorem lt_last_of_startsType (inside : state.Inside tokens)
    (starts : state.startsType state.pos = true) : state.pos < tokens.last :=
  State.lt_last_of_startsType inside.ended inside.same starts

end State.Inside

/-- From a state two parsers do the same.  They give a result and move the cursor forward
by at least its gain, or they fail, but not because a loop or a recursion has no end. -/
structure HaltsAt {α : Type} (tokens : TokenStream) (state : State) (gain : α -> Nat)
    (parser beside : Parser α) : Prop where
  agrees : beside state = parser state
  result : ∀ value after, parser state = .ok value after ->
    after.Inside tokens ∧ state.pos + gain value ≤ after.pos
  failure : ∀ error after, parser state = .error error after ->
    after.Inside tokens ∧ error ≠ .fault .endless

/-- Two parsers halt alike from every state that has come as far as a given index. -/
def Halts {α : Type} (tokens : TokenStream) (low : Nat) (gain : α -> Nat)
    (parser beside : Parser α) : Prop :=
  ∀ state, state.Inside tokens -> low ≤ state.pos ->
    HaltsAt tokens state gain parser beside

/-- The gain of parsers that may stay at a token. -/
def stays (_ : α) : Nat := 0

/-- The gain of parsers that pass a token. -/
def moves (_ : α) : Nat := 1

/-- A parser by itself halts. -/
abbrev Steady (tokens : TokenStream) (low : Nat) (parser : Parser α) : Prop :=
  Halts tokens low stays parser parser

/-- The gain of a round of a loop of the given rank. -/
def roundGain (rank : σ -> Nat) (current : σ) (gain : α -> Nat) : Round σ α -> Nat
  | .again next => rank next + 1 - rank current
  | .done value => gain value

namespace HaltsAt

variable {first : α -> Nat} {gain less : α -> Nat} {joint : β -> Nat}
  {parser beside : Parser α} {rest behind : α -> Parser β}

theorem of_ok {value : α} {after : State} (agrees : beside state = parser state)
    (run : parser state = .ok value after) (inside : after.Inside tokens)
    (forward : state.pos + gain value ≤ after.pos) :
    HaltsAt tokens state gain parser beside where
  agrees := agrees
  result := by
    intro other reached same
    cases run.symm.trans same
    exact ⟨inside, forward⟩
  failure := by
    intro error reached same
    cases run.symm.trans same

theorem of_error {error : Error} {after : State} (agrees : beside state = parser state)
    (run : parser state = .error error after) (inside : after.Inside tokens)
    (ends : error ≠ .fault .endless) : HaltsAt tokens state gain parser beside where
  agrees := agrees
  result := by
    intro value reached same
    cases run.symm.trans same
  failure := by
    intro other reached same
    cases run.symm.trans same
    exact ⟨inside, ends⟩

/-- A gain may be understated. -/
theorem weaken (halts : HaltsAt tokens state gain parser beside)
    (weaker : ∀ value, less value ≤ gain value) :
    HaltsAt tokens state less parser beside where
  agrees := halts.agrees
  result := by
    intro value after run
    obtain ⟨inside, forward⟩ := halts.result value after run
    exact ⟨inside, Nat.le_trans (Nat.add_le_add_left (weaker value) _) forward⟩
  failure := halts.failure

/-- Only the runs from the state count. -/
theorem congr {other otherBeside : Parser α}
    (halts : HaltsAt tokens state gain other otherBeside)
    (run : parser state = other state) (runBeside : beside state = otherBeside state) :
    HaltsAt tokens state gain parser beside where
  agrees := by rw [run, runBeside, halts.agrees]
  result := run ▸ halts.result
  failure := run ▸ halts.failure

/-- One parser behind another. -/
theorem bind (one : HaltsAt tokens state first parser beside)
    (two : ∀ value, Halts tokens (state.pos + first value)
      (fun result => joint result - first value) (rest value) (behind value)) :
    HaltsAt tokens state joint (parser >>= rest) (beside >>= behind) := by
  cases run : parser state with
  | error error after =>
      obtain ⟨inside, ends⟩ := one.failure error after run
      exact of_error ((bind_fail (one.agrees.trans run)).trans (bind_fail run).symm)
        (bind_fail run) inside ends
  | ok value after =>
      obtain ⟨inside, forward⟩ := one.result value after run
      have later := two value after inside forward
      refine ⟨?_, ?_, ?_⟩
      · rw [bind_run run, bind_run (one.agrees.trans run), later.agrees]
      · intro result reached ran
        rw [bind_run run] at ran
        obtain ⟨reaches, gained⟩ := later.result result reached ran
        exact ⟨reaches, by omega⟩
      · intro error reached ran
        rw [bind_run run] at ran
        exact later.failure error reached ran

/-- A parser that reads the state first. -/
theorem get_bind {rest behind : State -> Parser β}
    (two : HaltsAt tokens state joint (rest state) (behind state)) :
    HaltsAt tokens state joint (get >>= rest) (get >>= behind) :=
  two.congr rfl rfl

/-- A parser that reads the cursor first. -/
theorem position_bind {rest behind : Nat -> Parser β}
    (two : HaltsAt tokens state joint (rest state.pos) (behind state.pos)) :
    HaltsAt tokens state joint (position >>= rest) (position >>= behind) :=
  two.congr rfl rfl

theorem ite {condition : Prop} [Decidable condition]
    {left leftBeside right rightBeside : Parser α}
    (yes : condition -> HaltsAt tokens state gain left leftBeside)
    (no : ¬condition -> HaltsAt tokens state gain right rightBeside) :
    HaltsAt tokens state gain (if condition then left else right)
      (if condition then leftBeside else rightBeside) := by
  by_cases holds : condition
  · rw [if_pos holds, if_pos holds]
    exact yes holds
  · rw [if_neg holds, if_neg holds]
    exact no holds

/-- A token is skipped. -/
theorem advance (inside : state.Inside tokens) (further : state.pos < tokens.last) :
    HaltsAt tokens state moves advance advance :=
  of_ok rfl (advance_run (inside.same ▸ further)) (inside.next further) (Nat.le_refl _)

/-- A symbol is consumed, or another parser goes on. -/
theorem accept {symbol : String} {yes yesBeside no noBeside : Parser β}
    (inside : state.Inside tokens)
    (present : Halts tokens (state.pos + 1)
      (fun result => joint result - 1) yes yesBeside)
    (absent : HaltsAt tokens state joint no noBeside) :
    HaltsAt tokens state joint (do if ← accept symbol then yes else no)
      (do if ← Grammar.accept symbol then yesBeside else noBeside) := by
  by_cases here : state.sees symbol = true
  · have one :
        HaltsAt tokens state moves (Grammar.accept symbol) (Grammar.accept symbol) :=
      of_ok rfl (accept_of_sees here) (inside.next (inside.lt_last_of_sees here))
        (Nat.le_refl _)
    have two : HaltsAt tokens state joint (Grammar.accept symbol >>= fun _ => yes)
        (Grammar.accept symbol >>= fun _ => yesBeside) :=
      one.bind fun _ => present
    have run (parser no : Parser β) :
        (do if ← Grammar.accept symbol then parser else no : Parser β) state =
          (Grammar.accept symbol >>= fun _ => parser) state := by
      rw [accept_then here, bind_run (accept_of_sees here)]
    exact two.congr (run yes no) (run yesBeside noBeside)
  · have other : state.sees symbol = false := by simpa using here
    exact absent.congr (accept_else other) (accept_else other)

end HaltsAt

namespace Halts

variable {first gain less : α -> Nat} {joint : β -> Nat} {parser beside : Parser α}
  {rest behind : α -> Parser β}

/-! ## Ways to put parsers together -/

theorem weaken (halts : Halts tokens low gain parser beside)
    (weaker : ∀ value, less value ≤ gain value) : Halts tokens low less parser beside :=
  fun state inside reached => (halts state inside reached).weaken weaker

theorem loose (halts : Halts tokens low gain parser beside) :
    Halts tokens low stays parser beside :=
  halts.weaken fun _ => Nat.zero_le _

/-- Parsers that halt from an index on halt from every later one. -/
theorem mono {later : Nat} (halts : Halts tokens low gain parser beside)
    (le : low ≤ later) :
    Halts tokens later gain parser beside :=
  fun state inside reached => halts state inside (Nat.le_trans le reached)

theorem pure {value : α} (none : gain value = 0) :
    Halts tokens low gain (pure value) (Pure.pure value) :=
  fun state inside _ => .of_ok rfl rfl inside (by simp [none])

theorem throw {error : Error} (ends : error ≠ .fault .endless) :
    Halts tokens low gain (throw error : Parser α) (MonadExcept.throw error) :=
  fun _ inside _ => .of_error rfl rfl inside ends

/-- One parser behind another. -/
theorem bind (one : Halts tokens low first parser beside)
    (two : ∀ value, Halts tokens (low + first value)
      (fun result => joint result - first value) (rest value) (behind value)) :
    Halts tokens low joint (parser >>= rest) (beside >>= behind) :=
  fun state inside reached =>
    (one state inside reached).bind fun value =>
      (two value).mono (Nat.add_le_add_right reached _)

/-- One parser behind another that may stay at a token. -/
theorem seq (one : Halts tokens low first parser beside)
    (two : ∀ value, Halts tokens low joint (rest value) (behind value)) :
    Halts tokens low joint (parser >>= rest) (beside >>= behind) :=
  bind one.loose two

/-- One parser behind another of which no more is known than that it may stay at a
token. -/
theorem follow (one : Halts tokens low stays parser beside)
    (two : ∀ value, Halts tokens low joint (rest value) (behind value)) :
    Halts tokens low joint (parser >>= rest) (beside >>= behind) :=
  seq one two

/-- One parser behind another that passes a token. -/
theorem past (one : Halts tokens low moves parser beside)
    (two : ∀ value, Halts tokens (low + 1) (fun result => joint result - 1)
      (rest value) (behind value)) :
    Halts tokens low joint (parser >>= rest) (beside >>= behind) :=
  bind one two

/-- A parser that reads the state first. -/
theorem get_bind {rest behind : State -> Parser β}
    (two : ∀ state, state.Inside tokens -> low ≤ state.pos ->
      HaltsAt tokens state joint (rest state) (behind state)) :
    Halts tokens low joint (get >>= rest) (get >>= behind) :=
  fun state inside reached => .get_bind (two state inside reached)

/-- A parser that reads the state first and may use it anywhere. -/
theorem read {rest behind : State -> Parser β}
    (two : ∀ state, Halts tokens low joint (rest state) (behind state)) :
    Halts tokens low joint (get >>= rest) (get >>= behind) :=
  .get_bind fun state => two state state

theorem ite {condition : Prop} [Decidable condition]
    {left leftBeside right rightBeside : Parser α}
    (yes : Halts tokens low gain left leftBeside)
    (no : Halts tokens low gain right rightBeside) :
    Halts tokens low gain (if condition then left else right)
      (if condition then leftBeside else rightBeside) :=
  fun state inside reached =>
    .ite (fun _ => yes state inside reached) fun _ => no state inside reached

/-- A parser behind another that is run under a condition. -/
theorem first_if {condition : Prop} [Decidable condition] {parser beside : Parser Unit}
    {rest behind : Unit -> Parser β} (one : Halts tokens low stays parser beside)
    (two : ∀ value, Halts tokens low joint (rest value) (behind value)) :
    Halts tokens low joint (if condition then parser >>= rest else rest ())
      (if condition then beside >>= behind else behind ()) :=
  .ite (.seq one two) (two ())

/-- A parser behind another that is run unless a condition holds. -/
theorem first_unless {condition : Prop} [Decidable condition]
    {parser beside : Parser Unit}
    {rest behind : Unit -> Parser β} (one : Halts tokens low stays parser beside)
    (two : ∀ value, Halts tokens low joint (rest value) (behind value)) :
    Halts tokens low joint (if condition then rest () else parser >>= rest)
      (if condition then behind () else beside >>= behind) :=
  .ite (two ()) (.seq one two)

/-- Rounds of a loop within a bound that leaves one for every token ahead. -/
theorem iterateFor {rank : σ -> Nat} {round roundBeside : σ -> Parser (Round σ α)}
    (each : ∀ current, Halts tokens low (roundGain rank current gain) (round current)
      (roundBeside current))
    (bound : Nat) (current : σ) (inside : state.Inside tokens) (reached : low ≤ state.pos)
    (enough : tokens.last - state.pos + rank current < bound) :
    HaltsAt tokens state gain (iterateFor round bound current)
      (Grammar.iterateFor roundBeside bound current) := by
  induction bound generalizing current state with
  | zero => omega
  | succ bound hypothesis =>
      have one := each current state inside reached
      cases run : round current state with
      | error error after =>
          obtain ⟨within, ends⟩ := one.failure error after run
          exact .of_error ((bind_fail (one.agrees.trans run)).trans (bind_fail run).symm)
            (bind_fail run) within ends
      | ok result after =>
          obtain ⟨within, forward⟩ := one.result result after run
          cases result with
          | done value =>
              exact .of_ok ((iterateFor_done (one.agrees.trans run) bound).trans
                (iterateFor_done run bound).symm) (iterateFor_done run bound)
                  within forward
          | again next =>
              have bounded := within.cursor
              simp only [roundGain] at forward
              have later := hypothesis next within (by omega) (by omega)
              refine ⟨?_, ?_, ?_⟩
              · rw [iterateFor_again run, iterateFor_again (one.agrees.trans run),
                  later.agrees]
              · intro value reached ran
                rw [iterateFor_again run] at ran
                obtain ⟨reaches, gained⟩ := later.result value reached ran
                exact ⟨reaches, by omega⟩
              · intro error reached ran
                rw [iterateFor_again run] at ran
                exact later.failure error reached ran

/-- A loop whose rounds pass tokens, but for rounds that lower the rank. -/
theorem iterate (rank : σ -> Nat) {start : σ}
    {round roundBeside : σ -> Parser (Round σ α)} (bounded : rank start ≤ 1)
    (each : ∀ current, Halts tokens low (roundGain rank current gain) (round current)
      (roundBeside current)) :
    Halts tokens low gain (iterate start round) (Grammar.iterate start roundBeside) := by
  refine .get_bind fun state inside reached => ?_
  refine iterateFor each _ _ inside reached ?_
  rw [State.rounds, inside.same]
  omega

/-- A loop each of whose rounds passes a token. -/
theorem repeats {start : σ} {round roundBeside : σ -> Parser (Round σ α)}
    (each : ∀ current, Halts tokens low (roundGain (fun _ => 0) current gain)
      (round current) (roundBeside current)) :
    Halts tokens low gain (Grammar.iterate start round)
      (Grammar.iterate start roundBeside) :=
  .iterate _ (Nat.zero_le _) each

theorem mapM {parse : β -> Parser α} (each : ∀ entry, Steady tokens low (parse entry))
    (list : List β) : Steady tokens low (list.mapM parse) := by
  induction list with
  | nil => exact .pure rfl
  | cons entry rest hypothesis =>
      rw [List.mapM_cons]
      exact .seq (each entry) fun _ => .seq hypothesis fun _ => .pure rfl

theorem forM {check : β -> Parser PUnit} (each : ∀ entry, Steady tokens low (check entry))
    (list : List β) : Steady tokens low (list.forM check) := by
  induction list with
  | nil => exact .pure rfl
  | cons entry rest hypothesis => exact .seq (each entry) fun _ => hypothesis

theorem withScope (inner : Halts tokens low gain parser beside) :
    Halts tokens low gain (withScope parser) (Grammar.withScope beside) := by
  intro state inside reached
  have entered : State.Inside tokens { state with scopes := state.scopes.enter } :=
    inside.keep rfl rfl
  have halts := inner _ entered reached
  have agrees : Grammar.withScope beside state = Grammar.withScope parser state := by
    unfold Grammar.withScope
    rw [halts.agrees]
  cases run : parser { state with scopes := state.scopes.enter } with
  | ok value after =>
      obtain ⟨within, forward⟩ := halts.result value after run
      exact .of_ok agrees (withScope_run run) (within.keep rfl rfl) forward
  | error error after =>
      obtain ⟨within, ends⟩ := halts.failure error after run
      have failed : Grammar.withScope parser state =
          .error error { after with scopes := after.scopes.leave } := by
        unfold Grammar.withScope
        rw [run]
      exact .of_error agrees failed (within.keep rfl rfl) ends

/-! ## The cursor -/

theorem failAt {index : Nat} {cause : Cause} :
    Halts tokens low gain (failAt index cause) (Grammar.failAt index cause) :=
  fun _ inside _ => .of_error rfl rfl inside (by simp)

theorem failHere {cause : Cause} :
    Halts tokens low gain (failHere cause) (Grammar.failHere cause) :=
  fun _ inside _ => .of_error rfl rfl inside (by simp)

/-- What stands behind a rejection does not matter. -/
theorem failAt_bind {index : Nat} {cause : Cause} :
    Halts tokens low joint (Grammar.failAt index cause >>= rest)
      (Grammar.failAt index cause >>= behind) :=
  fun _ inside _ => .of_error rfl rfl inside (by simp)

/-- A parser that gives a result and leaves the tokens and the cursor alone. -/
theorem steady (same : ∀ state, ∃ value after, parser state = .ok value after ∧
      after.tokens = state.tokens ∧ after.pos = state.pos) :
        Steady tokens low parser := by
  intro state inside _
  obtain ⟨value, after, run, tokens, pos⟩ := same state
  exact .of_ok rfl run (inside.keep tokens pos) (Nat.le_of_eq pos.symm)

theorem position : Steady tokens low position := steady fun _ => ⟨_, _, rfl, rfl, rfl⟩

theorem advance : Steady tokens low advance := by
  intro state inside _
  by_cases further : state.pos < state.tokens.last
  · exact (HaltsAt.advance inside (inside.same ▸ further)).weaken fun _ => Nat.zero_le _
  · exact .of_ok rfl (advance_stays further) inside (Nat.le_refl _)

/-- A symbol is consumed, or another parser goes on. -/
theorem accept {symbol : String} {yes yesBeside no noBeside : Parser β}
    (present : Halts tokens (low + 1) (fun result => joint result - 1) yes yesBeside)
    (absent : Halts tokens low joint no noBeside) :
    Halts tokens low joint (do if ← accept symbol then yes else no)
      (do if ← Grammar.accept symbol then yesBeside else noBeside) :=
  fun state inside reached =>
    .accept inside (present.mono (Nat.succ_le_succ reached)) (absent state inside reached)

theorem expect {symbol : String} :
    Halts tokens low moves (expect symbol) (Grammar.expect symbol) :=
  .accept (.pure rfl) (.read fun _ => .failHere)

theorem identifier : Halts tokens low moves identifier identifier := by
  intro state inside _
  by_cases here : state.current.isIdentifier = true
  · exact .of_ok rfl (identifier_run here)
      (inside.next (inside.lt_last_of_identifier here)) (Nat.le_refl _)
  · have failed : Grammar.identifier state = .error (.rejected
        (.grammar (.expectedIdentifier state.current.describe)) state.current.loc)
          state := by
      change (if state.current.isIdentifier = true then _ else _ : Parser _) state = _
      rw [if_neg here]
      rfl
    exact .of_error rfl failed inside (by simp)

theorem identifier? : Steady tokens low identifier? :=
  .read fun _ => .ite (.seq .identifier fun _ => .pure rfl) (.pure rfl)

theorem digits (negative : Bool) :
    Halts tokens low moves (digits negative) (digits negative) := by
  refine .get_bind fun state inside reached => ?_
  cases here : state.current.kind with
  | num value =>
      have further := lt_last inside.ended inside.same (by simp [here])
      have one :
          HaltsAt tokens state moves (set state.next : Parser PUnit) (set state.next) :=
        .of_ok rfl rfl (inside.next further) (Nat.le_refl _)
      refine one.bind fun _ => .ite ?_ (.pure rfl)
      exact .ite (.pure rfl) (.throw (by simp))
  | _ => exact failHere state inside reached

theorem number : Halts tokens low moves number number := by
  rw [number_eq]
  exact .accept (digits true).loose (.digits false)

end Halts

end Grammar
end MiniC
