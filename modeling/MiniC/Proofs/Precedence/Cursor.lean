import MiniC.Proofs.Grammar.Runs
import MiniC.Proofs.Precedence.Tree

/-!
# Lexemes at the cursor

`TokenStream.Shows` says that the tokens from an index on are written as given lexemes,
and `Walked` that a parser has read some of them and entered nodes, and done nothing else.
So what stands behind the cursor and what is declared is known after every step.
-/

namespace MiniC

open Precedence

namespace Precedence.Lexeme

/-- Whether a lexeme is the given punctuator or keyword. -/
def isSymbol : Lexeme -> String -> Bool
  | symbol text, other => text == other
  | name _, _ | number _, _ => false

end Precedence.Lexeme

/-- A token is written as a lexeme. -/
def Token.Is (token : Token) : Lexeme -> Prop
  | .symbol text => (token.kind = .punctuator ∨ token.kind = .keyword) ∧ token.text = text
  | .name name => token.kind = .identifier ∧ token.text = name.text
  | .number value => token.kind = .num value

/-- A token is the symbols that its lexeme is. -/
theorem Token.Is.isSymbol_eq {token : Token} {lexeme : Lexeme} (is : token.Is lexeme)
    (symbol : String) : token.isSymbol symbol = lexeme.isSymbol symbol := by
  unfold Token.isSymbol
  cases lexeme with
  | symbol text =>
      obtain ⟨kind | kind, rfl⟩ := is
      · rw [kind]
        rfl
      · rw [kind]
        rfl
  | name name =>
      rw [is.1]
      rfl
  | number value =>
      rw [show token.kind = .num value from is]
      rfl

namespace TokenStream

/-- The tokens from an index on are written as some lexemes. -/
def Shows (tokens : TokenStream) : Nat -> List Lexeme -> Prop
  | _, [] => True
  | index, lexeme :: rest =>
      index < tokens.last ∧ (tokens.get index).Is lexeme ∧ tokens.Shows (index + 1) rest

variable {tokens : TokenStream} {index : Nat}

/-- Lexemes that are shown one behind the other. -/
theorem Shows.append {first second : List Lexeme}
    (shows : tokens.Shows index (first ++ second)) :
    tokens.Shows index first ∧ tokens.Shows (index + first.length) second := by
  induction first generalizing index with
  | nil => exact ⟨trivial, shows⟩
  | cons lexeme rest hypothesis =>
      obtain ⟨inside, is, further⟩ := shows
      obtain ⟨front, back⟩ := hypothesis further
      refine ⟨⟨inside, is, front⟩, ?_⟩
      rw [List.length_cons, ← Nat.add_assoc, Nat.add_right_comm]
      exact back

/-- All of them stand before the end. -/
theorem Shows.length_le {lexemes : List Lexeme} (shows : tokens.Shows index lexemes) :
    lexemes.length ≤ tokens.last - index := by
  induction lexemes generalizing index with
  | nil => exact Nat.zero_le _
  | cons lexeme rest hypothesis =>
      obtain ⟨inside, _, further⟩ := shows
      have behind := hypothesis further
      rw [List.length_cons]
      omega

end TokenStream

namespace Grammar

/-- The tokens from the cursor on are written as some lexemes. -/
def State.Shows (state : State) (lexemes : List Lexeme) : Prop :=
  state.tokens.Shows state.pos lexemes

namespace State.Shows

variable {state : State} {lexeme : Lexeme} {rest : List Lexeme}

/-- What is behind the first lexeme. -/
theorem next (shows : state.Shows (lexeme :: rest)) : state.next.Shows rest := shows.2.2

/-- A lexeme is shown in front of the end. -/
theorem before (shows : state.Shows (lexeme :: rest)) :
    state.pos < state.tokens.last := shows.1

theorem current (shows : state.Shows (lexeme :: rest)) :
    state.current.Is lexeme := shows.2.1

theorem sees {symbol : String} (shows : state.Shows (.symbol symbol :: rest)) :
    state.sees symbol = true := by
  unfold State.sees State.seesAt State.token
  rw [shows.2.1.isSymbol_eq]
  exact beq_self_eq_true symbol

/-- A lexeme that is shown is no other symbol. -/
theorem sees_eq_false {symbol : String} (shows : state.Shows (lexeme :: rest))
    (other : lexeme.isSymbol symbol = false) : state.sees symbol = false := by
  unfold State.sees State.seesAt State.token
  rw [shows.2.1.isSymbol_eq]
  exact other

/-- The tokens do not end where there is a lexeme. -/
theorem isEof_eq_false {lexemes : List Lexeme} (shows : state.Shows lexemes)
    (some : lexemes ≠ []) : state.current.isEof = false := by
  obtain _ | ⟨first, rest⟩ := lexemes
  · exact absurd rfl some
  have is := shows.current
  unfold Token.isEof
  cases first with
  | symbol text =>
      obtain ⟨kind | kind, -⟩ := is
      · rw [kind]
        rfl
      · rw [kind]
        rfl
  | name name =>
      rw [is.1]
      rfl
  | number value =>
      rw [show state.current.kind = .num value from is]
      rfl

/-- The token behind the first lexeme. -/
theorem seesAt_succ_eq_false {symbol : String} {lexemes : List Lexeme}
    (shows : state.Shows lexemes) (long : 1 < lexemes.length)
    (other : ∀ lexeme ∈ lexemes, lexeme.isSymbol symbol = false) :
    state.seesAt (state.pos + 1) symbol = false := by
  obtain _ | ⟨first, _ | ⟨second, rest⟩⟩ := lexemes
  · simp at long
  · simp at long
  · exact shows.next.sees_eq_false (other second (by simp))

/-- The cursor moves behind a lexeme that is shown. -/
theorem advance_run (shows : state.Shows (lexeme :: rest)) :
    advance state = .ok () state.next := by
  change EStateM.Result.ok ()
    { state with
      pos := if state.pos < state.tokens.last then state.pos + 1 else state.pos } = _
  rw [if_pos shows.before]
  rfl

end State.Shows

/-! ## Type names -/

/-- No name stands for a type. -/
def State.NoTypedef (state : State) : Prop :=
  ∀ name ty, state.scopes.lookupVariable? name ≠ some (.typedef ty)

/-- Where no type has a name, no identifier is one. -/
theorem State.NoTypedef.typedefAt?_eq_none {state : State} (clean : state.NoTypedef)
    (index : Nat) : state.typedefAt? index = none := by
  have noType (name : String) : state.scopes.typedef? name = none := by
    unfold Scopes.typedef?
    split
    · rename_i found
      exact absurd found (clean _ _)
    · rfl
  unfold State.typedefAt?
  simp only [noType, ite_self]

/-- Without a keyword no type name begins. -/
theorem State.NoTypedef.startsType_eq_false {state : State} (clean : state.NoTypedef)
    (noKeyword : ∀ keyword ∈ State.typeKeywords, state.sees keyword = false) :
    state.startsType state.pos = false := by
  have absent : State.typeKeywords.any (state.seesAt state.pos) = false := by
    rw [List.any_eq_false]
    intro keyword member
    exact Bool.eq_false_iff.mp (noKeyword keyword member)
  unfold State.startsType
  rw [absent, clean.typedefAt?_eq_none]
  rfl

/-! ## Reading on -/

/-- The state behind some tokens, with more nodes. -/
def State.forward (state : State) (count : Nat) (nodes : Array Node) : State :=
  { state with
    pos := state.pos + count
    program := { state.program with nodes := state.program.nodes ++ nodes } }

/-- Some tokens have been read and nodes entered, and nothing else has changed. -/
def Walked (before : State) (count : Nat) (after : State) : Prop :=
  ∃ nodes, after = before.forward count nodes

namespace Walked

variable {before middle after : State} {count more : Nat}

theorem next (state : State) : Walked state 1 state.next :=
  ⟨#[], by simp [State.forward, State.next]⟩

/-- A node has been entered. -/
theorem push (state : State) (node : Node) :
    Walked state 0
      { state with program := { state.program with
        nodes := state.program.nodes.push node } } :=
  ⟨#[node], by simp [State.forward]⟩

/-- Walks are put one behind the other. -/
theorem trans (first : Walked before count middle) (second : Walked middle more after) :
    Walked before (count + more) after := by
  obtain ⟨nodes, rfl⟩ := first
  obtain ⟨others, rfl⟩ := second
  exact ⟨nodes ++ others, by simp [State.forward, Nat.add_assoc]⟩

theorem extends_ (walked : Walked before count after) :
    before.program.Extends after.program := by
  obtain ⟨nodes, rfl⟩ := walked
  refine ⟨fun _ _ found => found, fun id node found => ?_, fun _ _ found => found⟩
  obtain ⟨bound, _⟩ := Array.getElem?_eq_some_iff.mp found
  change (before.program.nodes ++ nodes)[id.index]? = some node
  rw [Array.getElem?_append_left bound]
  exact found

/-- What stands behind the tokens that have been read. -/
theorem shows {lexemes rest : List Lexeme} (walked : Walked before count after)
    (shows : before.Shows (lexemes ++ rest)) (length : lexemes.length = count) :
    after.Shows rest := by
  obtain ⟨nodes, rfl⟩ := walked
  subst length
  exact shows.append.2

/-- Behind the first lexeme the others are shown. -/
theorem shows_tail {lexeme : Lexeme} {rest : List Lexeme} (walked : Walked before 1 after)
    (shows : before.Shows (lexeme :: rest)) : after.Shows rest := by
  obtain ⟨nodes, rfl⟩ := walked
  exact shows.next

end Walked

end Grammar
end MiniC
