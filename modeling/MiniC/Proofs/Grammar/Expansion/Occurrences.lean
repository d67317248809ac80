import MiniC.Proofs.Grammar.Crossing.Files
import MiniC.Proofs.Grammar.Expansion.Operands
import MiniC.Proofs.Program.Composition

/-!
# States from which productions are called

A state from which the parser comes to call a production is a state of the parser in the
middle of its tokens.  This follows from what has been shown of crossings: were it not,
the call would cross any place, and so would the whole file, a place behind fewer types
than there are at its beginning.
-/

namespace MiniC

/-- The tokens behind two opening parentheses. -/
def TokenStream.behindParentheses (tokens : TokenStream) : TokenStream where
  body := #[⟨.punctuator, "(", 0, (tokens.get 0).line⟩,
    ⟨.punctuator, "(", 0, (tokens.get 0).line⟩] ++ tokens.body
  eof := tokens.eof

theorem TokenStream.get_behindParentheses (tokens : TokenStream) (index : Nat) :
    tokens.behindParentheses.get (2 + index) = tokens.get index := by
  unfold behindParentheses get
  simp only [Array.getD_eq_getD_getElem?]
  rw [Array.getElem?_append_right (by simp)]
  simp

theorem TokenStream.get_behindParentheses_of_lt (tokens : TokenStream) {index : Nat}
    (before : index < 2) :
    tokens.behindParentheses.get index = ⟨.punctuator, "(", 0, (tokens.get 0).line⟩ := by
  unfold behindParentheses
  rw [get, Array.getD_eq_getD_getElem?, Array.getElem?_append_left before]
  obtain rfl | rfl : index = 0 ∨ index = 1 := by omega
  · rfl
  · rfl

namespace Grammar

variable {tokens : TokenStream} {state there middle after : State} {deep : Nat}

/-- At the beginning of a file two parentheses may stand. -/
def Crossing.beginning (tokens : TokenStream) (sound : tokens.Sound) : Crossing where
  behind :=
    { tokens := tokens
      other := tokens.behindParentheses
      names := .moving (2 + ·)
      low := 0
      high := 0
      base := 2
      tyLow := 0
      tyHigh := 0
      tyBase := 0
      nodeLow := 0
      nodeHigh := 0
      nodeBase := 0
      whole := True
      plain := False
      anchor := .initial tokens
      ground := .empty
      sound := sound
      ended := sound.ended
      alike := fun n _ => by
        rw [tokens.get_behindParentheses, Nat.zero_add]
        exact ⟨rfl, rfl⟩
      lines := fun _ n _ => by rw [tokens.get_behindParentheses, Nat.zero_add]
      places := fun n _ => congrArg (2 + ·) (Nat.zero_add n)
      spelled := fun tok _ => congrArg Token.text (tokens.get_behindParentheses tok)
      quiet := False.elim
      loud := fun never _ => never
      tyFresh := fun _ _ => rfl
      nodeFresh := fun _ _ => rfl }
  whole := trivial
  braced := id
  start := 0
  types := 0
  nodes := 0
  alike := fun _ never => absurd never (Nat.not_lt_zero _)
  lines := fun n first => by
    obtain rfl := Nat.le_zero.mp first
    change (tokens.behindParentheses.get 0).line = _
    rw [tokens.get_behindParentheses_of_lt Nat.zero_lt_two]
  places := fun _ never => absurd never (Nat.not_lt_zero _)
  opened := by
    rw [tokens.get_behindParentheses_of_lt Nat.zero_lt_two]
    rfl
  second := .inl (by
    rw [tokens.get_behindParentheses_of_lt Nat.one_lt_two]
    rfl)
  tyFixed := fun _ never => absurd never (Nat.not_lt_zero _)
  nodeFixed := fun _ never => absurd never (Nat.not_lt_zero _)

/-- A production is called from a state in the middle of the tokens. -/
theorem Calls.within {target : Productions -> Parser NodeId} (sound : tokens.Sound)
    (calls : Calls tokens target deep there) : there.Within tokens := by
  by_contra outside
  let x := Crossing.beginning tokens sound
  have crosses (more : Nat) :
      x.Crosses True there (target (productions deep)) (target (productions more)) :=
    ⟨fun within => absurd within outside,
      fun _ _ tied => absurd tied.linked.within outside⟩
  have ahead := (calls.crosses (x := x) crosses 0).ahead (.initial tokens)
  exact absurd ahead.types (show ¬ TypeTable.initial.entries.size ≤ 0 by decide)

/-! ## What operands add -/

section

variable (sound : tokens.Sound) (within : state.Within tokens)

include sound within

/-- A primary expression passes a token. -/
theorem primary_passes {node : NodeId}
    (run : primary (productions deep) state = .ok node after) :
    Added tokens state after ∧ state.pos < after.pos := by
  have own := (Twins.primary (Crossing.behind_twin (.beginning tokens sound) deep deep)
    (Nat.zero_le _) state state within (Nat.le_refl _)).own
  exact ⟨own.added _ _ run, own.passes _ _ run trivial⟩

/-- So does an expression. -/
theorem expr_passes {node : NodeId}
    (run : (productions deep).expr state = .ok node after) :
    Added tokens state after ∧ state.pos < after.pos := by
  have own := ((Crossing.behind_twin (.beginning tokens sound) deep deep).expr _
    (Nat.zero_le _) state state within (Nat.le_refl _)).own
  exact ⟨own.added _ _ run, own.passes _ _ run trivial⟩

/-- So does an operand of any level. -/
theorem parserAt_passes {level : Nat} {node : NodeId} (binary : 2 ≤ level)
    (run : parserAt (productions deep) level state = .ok node after) :
    Added tokens state after ∧ state.pos < after.pos := by
  have own := (Twins.parserAt
    (Crossing.behind_twin (.beginning tokens sound) deep deep) binary
    (Nat.zero_le _) state state within (Nat.le_refl _)).own
  exact ⟨own.added _ _ run, own.passes _ _ run trivial⟩

/-- What the rounds of a postfix expression add. -/
theorem added_of_trailers {first current : NodeId}
    (rounds : Rounds (trailerRound (productions deep)) first state current after) :
    Added tokens state after :=
  Window.added_of_rounds
    (fun current => Twins.trailerRound
      (Crossing.behind_twin (.beginning tokens sound) deep deep)
      current) rounds within (Nat.zero_le _)

/-- What the rounds of a sum add. -/
theorem added_of_terms {first current : NodeId}
    (rounds : Rounds (chainRound (joinsAt 6) (parserAt (productions deep) 7))
      first state current after) : Added tokens state after :=
  Window.added_of_rounds
    (fun current => @Twins.joinRound _ _ _ _ 6 _ _ (fun _ => .parserAt
      (Crossing.behind_twin (.beginning tokens sound) deep deep) (show 2 ≤ 7 by decide))
        current)
    rounds within (Nat.zero_le _)

end

end Grammar
end MiniC
