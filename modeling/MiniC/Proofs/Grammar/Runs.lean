import MiniC.Grammar.Unit
import MiniC.Proofs.Grammar.Moves

/-!
# Runs of parsers

What the small parsers do in a state of which enough is known to tell.  Rewriting with
these equations runs a parser one step at a time.
-/

namespace MiniC
namespace Grammar

variable {α β σ : Type} {state middle after : State}

/-! ## Sequences -/

/-- A parser behind one that succeeds. -/
theorem bind_run {parser : Parser α} {rest : α -> Parser β} {value : α}
    (known : parser state = .ok value after) :
    (parser >>= rest) state = rest value after := by
  change EStateM.bind parser rest state = _
  rw [EStateM.bind, known]

/-- A parser behind one that fails. -/
theorem bind_fail {parser : Parser α} {rest : α -> Parser β} {error : Error}
    (failed : parser state = .error error after) :
    (parser >>= rest) state = .error error after := by
  change EStateM.bind parser rest state = _
  rw [EStateM.bind, failed]

/-- A parser that reads the state first. -/
theorem get_run (rest : State -> Parser β) : (get >>= rest) state = rest state state :=
  rfl

/-- A parser that reads the cursor first. -/
theorem position_run (rest : Nat -> Parser β) :
    (position >>= rest) state = rest state.pos state := rfl

theorem query_eq_ok {read : Program -> Except Error α} {value : α}
    (known : read state.program = .ok value) : query read state = .ok value state := by
  change ofExcept (read state.program) state = _
  rw [known]
  rfl

/-- A parser that reads the program first. -/
theorem query_run {read : Program -> Except Error α} {rest : α -> Parser β} {value : α}
    (known : read state.program = .ok value) :
    (query read >>= rest) state = rest value state :=
  bind_run (query_eq_ok known)

/-! ## The cursor -/

/-- No two symbols stand at the cursor. -/
theorem State.sees_eq_false {symbol other : String}
    (here : state.sees symbol = true) (differ : symbol ≠ other) :
    state.sees other = false := by
  unfold State.sees State.seesAt Token.isSymbol at *
  split at here
  · simp_all
  · simp_all
  · cases here

theorem accept_of_sees {symbol : String} (here : state.sees symbol = true) :
    accept symbol state = .ok true state.next := by
  change (if state.sees symbol = true then _ else _ : Parser Bool) state = _
  rw [if_pos here]
  rfl

theorem accept_of_not_sees {symbol : String} (other : state.sees symbol = false) :
    accept symbol state = .ok false state := by
  change (if state.sees symbol = true then _ else _ : Parser Bool) state = _
  rw [if_neg (by simp [other])]
  rfl

/-- A parser that goes on behind a symbol. -/
theorem accept_then {symbol : String} {yes no : Parser β}
    (here : state.sees symbol = true) :
    (do if ← accept symbol then yes else no : Parser β) state = yes state.next := by
  rw [bind_run (accept_of_sees here), if_pos rfl]

/-- A parser that goes on without a symbol. -/
theorem accept_else {symbol : String} {yes no : Parser β}
    (other : state.sees symbol = false) :
    (do if ← accept symbol then yes else no : Parser β) state = no state := by
  rw [bind_run (accept_of_not_sees other), if_neg Bool.false_ne_true]

theorem expect_run {symbol : String} (here : state.sees symbol = true) :
    expect symbol state = .ok () state.next :=
  bind_run (accept_of_sees here)

theorem identifier_run (here : state.current.isIdentifier = true) :
    identifier state = .ok (state.current.text, state.pos) state.next := by
  change (if state.current.isIdentifier = true then _ else _ : Parser _) state = _
  rw [if_pos here]
  rfl

theorem identifier?_run (here : state.current.isIdentifier = true) :
    identifier? state = .ok (some (state.current.text, state.pos)) state.next := by
  change (if state.current.isIdentifier = true then _ else _ : Parser _) state = _
  rw [if_pos here, bind_run (identifier_run here)]
  rfl

/-- A number without a sign. -/
theorem number_run {value : Int} (unsigned : state.sees "-" = false)
    (here : state.current.kind = .num value) : number state = .ok value state.next := by
  change (accept "-" >>= _) state = _
  rw [bind_run (accept_of_not_sees unsigned), get_run, here]
  rfl

theorem withScope_run {parser : Parser α} {value : α}
    (inner : parser { state with scopes := state.scopes.enter } = .ok value after) :
    withScope parser state = .ok value { after with scopes := after.scopes.leave } := by
  unfold withScope
  rw [inner]

theorem finishFunction_run {function : FunctionContext}
    (inside : state.function = some function) :
    finishFunction state = .ok function { state with function := none } := by
  unfold finishFunction
  rw [get_run, inside]
  rfl

/-! ## Loops -/

theorem iterate_run (start : σ) (round : σ -> Parser (Round σ α)) :
    iterate start round state = iterateFor round (state.tokens.last + 2) start state :=
      rfl

theorem iterateFor_again {round : σ -> Parser (Round σ α)} {start next : σ}
    (goes : round start state = .ok (.again next) middle) (bound : Nat) :
    iterateFor round (bound + 1) start state = iterateFor round bound next middle := by
  rw [iterateFor, bind_run goes]

theorem iterateFor_done {round : σ -> Parser (Round σ α)} {start : σ} {result : α}
    (ends : round start state = .ok (.done result) after) (bound : Nat) :
    iterateFor round (bound + 1) start state = .ok result after := by
  rw [iterateFor, bind_run ends]
  rfl

/-- A loop whose first round is its last. -/
theorem iterate_done {round : σ -> Parser (Round σ α)} {start : σ} {result : α}
    (ends : round start state = .ok (.done result) after) :
    iterate start round state = .ok result after := by
  rw [iterate_run]
  exact iterateFor_done ends _

/-- A loop with one round before the last. -/
theorem iterate_again_done {round : σ -> Parser (Round σ α)} {start : σ} {result : α}
    (next : σ) (middle : State) (goes : round start state = .ok (.again next) middle)
    (ends : round next middle = .ok (.done result) after) :
    iterate start round state = .ok result after := by
  rw [iterate_run, iterateFor_again goes]
  exact iterateFor_done ends _

/-! ## Blocks and files -/

variable {again : Productions}

/-- One round of a block: an item, or the end. -/
def blockRound (again : Productions) (body : List NodeId) :
    Parser (Round (List NodeId) (List NodeId)) := do
  if ← accept closeBrace then
    return .done body
  else if (← get).current.isEof then
    failHere (.grammar (.expected closeBrace "EOF"))
  else
    return .again (body ++ (← blockItem again))

/-- One round of the loop over the declarations of a source file. -/
def unitRound (again : Productions) (_ : Unit) : Parser (Round Unit Unit) := do
  if (← get).current.isEof then
    return .done ()
  else
    fileDeclaration again
    return .again ()

theorem unit_run (again : Productions) (state : State) :
    unit again state = iterateFor (unitRound again) state.rounds () state := rfl

theorem unitRound_run (more : state.current.isEof = false) :
    unitRound again () state = (do
      fileDeclaration again
      return .again () : Parser (Round Unit Unit)) state := by
  change (if state.current.isEof then _ else _ : Parser (Round Unit Unit)) state = _
  rw [more]
  rfl

theorem unitRound_of_eof (ends : state.current.isEof = true) :
    unitRound again () state = .ok (.done ()) state := by
  change (if state.current.isEof then _ else _ : Parser (Round Unit Unit)) state = _
  rw [ends]
  rfl

end Grammar
end MiniC
