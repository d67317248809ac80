import MiniC.Proofs.Grammar.Crossing
import MiniC.Proofs.Sources

/-!
# Where the operands of an expansion stand

Two operands with an operator between them are replaced by other tokens, in which both
operands stand too.  The tokens in front of them and behind them are the same, and on the
same lines.
-/

namespace MiniC

open Grammar

namespace TokenStream

/-- Tokens from an index on are copies of the tokens from one index up to another. -/
def Copies (tokens other : TokenStream) (low high base : Nat) : Prop :=
  ∀ index, low + index < high ->
    (other.get (base + index)).content = (tokens.get (low + index)).content

/-- The tokens from an index on are copies of the last tokens. -/
def Ends (tokens other : TokenStream) (low base : Nat) : Prop :=
  ∀ index, (other.get (base + index)).content = (tokens.get (low + index)).content

end TokenStream

/-- Tokens of the same content are of the same kind, text and line. -/
theorem Token.content_eq {token other : Token} (same : other.content = token.content) :
    other.kind = token.kind ∧ other.text = token.text ∧ other.line = token.line := by
  unfold Token.content at same
  simpa only [Prod.mk.injEq] using same

namespace Grammar

/-- The places of two operands, and of the tokens behind them, in another stream. -/
structure Placement where
  tokens : TokenStream
  other : TokenStream
  sound : tokens.Sound
  ended : other.eof.kind = .eof
  /-- The left operand, the operator, the right operand and what closes it. -/
  first : Nat
  operator : Nat
  last : Nat
  behind : Nat
  /-- The places of the operands and of the tokens behind them. -/
  left : Nat
  right : Nat
  rest : Nat
  ordered : first < operator ∧ operator < last ∧ last ≤ behind
  front : tokens.Copies other 0 first 0
  line : (other.get first).line = (tokens.get first).line
  lefts : tokens.Copies other first operator left
  rights : tokens.Copies other (operator + 1) last right
  ends : tokens.Ends other behind rest
  /-- Apart from the operands there are no names. -/
  nameless : ∀ index, index = operator ∨ last ≤ index ∧ index < behind ->
    (tokens.get index).isIdentifier = false
  opened : (other.get first).isSymbol "(" = true
  second : (other.get (first + 1)).isSymbol "(" = true ∨
    (other.get (first + 1)).isSymbol "*" = true

namespace Placement

variable (l : Placement)

/-- The place of a token in the other stream. -/
def place (index : Nat) : Nat :=
  if index < l.first then index
  else if index < l.operator then l.left + (index - l.first)
  else if index < l.behind then l.right + (index - (l.operator + 1))
  else l.rest + (index - l.behind)

/-- The tokens in front of the occurrence stay where they are. -/
theorem place_front {index : Nat} (front : index < l.first) : l.place index = index := by
  unfold place
  rw [if_pos front]

/-- The left operand is copied in one piece. -/
theorem place_left {index : Nat} (low : l.first ≤ index) (high : index < l.operator) :
    l.place index = l.left + (index - l.first) := by
  unfold place
  rw [if_neg (by omega), if_pos high]

theorem place_right {index : Nat} (low : l.operator ≤ index) (high : index < l.behind) :
    l.place index = l.right + (index - (l.operator + 1)) := by
  have := l.ordered
  unfold place
  rw [if_neg (by omega), if_neg (by omega), if_pos high]

/-- The tokens behind the occurrence move together. -/
theorem place_rest {index : Nat} (low : l.behind ≤ index) :
    l.place index = l.rest + (index - l.behind) := by
  have := l.ordered
  unfold place
  rw [if_neg (by omega), if_neg (by omega), if_neg (by omega)]

/-- A name is spelled alike at its other place. -/
theorem spelled (index : Nat) (identifier : (l.tokens.get index).isIdentifier = true) :
    (l.other.get (l.place index)).text = (l.tokens.get index).text := by
  have named {other base low : Nat} (same : index = low + other)
      (copy : (l.other.get (base + other)).content =
        (l.tokens.get (low + other)).content) :
      (l.other.get (base + other)).text = (l.tokens.get index).text := by
    rw [same]
    exact (Token.content_eq copy).2.1
  have := l.ordered
  by_cases front : index < l.first
  · rw [l.place_front front]
    exact (Token.content_eq (by simpa using l.front index (by simpa using front))).2.1
  by_cases left : index < l.operator
  · rw [l.place_left (by omega) left]
    exact named (by omega) (l.lefts (index - l.first) (by omega))
  by_cases right : index < l.last
  · have apart : index ≠ l.operator := by
      rintro rfl
      cases identifier.symm.trans (l.nameless _ (.inl rfl))
    rw [l.place_right (by omega) (by omega)]
    exact named (by omega) (l.rights (index - (l.operator + 1)) (by omega))
  by_cases closed : index < l.behind
  · cases identifier.symm.trans (l.nameless index (.inr ⟨by omega, closed⟩))
  · rw [l.place_rest (by omega)]
    exact named (by omega) (l.ends (index - l.behind))

/-- A symbol of the other stream stands before its end. -/
theorem lt_last {index : Nat} {symbol : String}
    (here : (l.other.get index).isSymbol symbol = true) : index < l.other.last := by
  by_contra beyond
  rw [TokenStream.get_of_last_le (Nat.le_of_not_lt beyond)] at here
  exact kind_ne_eof_of_isSymbol here l.ended

/-! ## Windows -/

/-- References for what is entered while a stretch of tokens is read. -/
structure Entries where
  names : Renaming
  tyLow : Nat
  tyHigh : Nat
  tyBase : Nat
  nodeLow : Nat
  nodeHigh : Nat
  nodeBase : Nat
  tyFresh : ∀ n, tyLow + n < tyHigh -> names.ty ⟨tyLow + n⟩ = ⟨tyBase + n⟩
  nodeFresh : ∀ n, nodeLow + n < nodeHigh -> names.node ⟨nodeLow + n⟩ = ⟨nodeBase + n⟩

/-- A stretch of tokens that is copied. -/
def stretch (entries : Entries) (token : entries.names.token = l.place)
    (low high base : Nat) (copies : l.tokens.Copies l.other low high base)
    (places : ∀ n, low + n < high -> l.place (low + n) = base + n) (plain : Prop)
    (anchor : State) (ground : Program)
    (quiet : plain -> ∀ n, low + n < high ->
      (l.tokens.get (low + n)).isSymbol openBrace = false ∧
        (l.tokens.get (low + n)).kind.string? = none) : Window where
  tokens := l.tokens
  other := l.other
  names := entries.names
  low := low
  high := high
  base := base
  tyLow := entries.tyLow
  tyHigh := entries.tyHigh
  tyBase := entries.tyBase
  nodeLow := entries.nodeLow
  nodeHigh := entries.nodeHigh
  nodeBase := entries.nodeBase
  whole := False
  plain := plain
  anchor := anchor
  ground := ground
  sound := l.sound
  ended := l.ended
  alike := fun n shown =>
    let same := Token.content_eq (copies n (shown.resolve_left id))
    ⟨same.1, same.2.1⟩
  lines := fun _ n shown => (Token.content_eq (copies n (shown.resolve_left id))).2.2
  places := fun n shown => by
    rw [token]
    exact places n (shown.resolve_left id)
  spelled := fun tok identifier => by
    rw [token]
    exact l.spelled tok identifier
  quiet := quiet
  loud := fun _ => id
  tyFresh := fun n shown => entries.tyFresh n (shown.resolve_left id)
  nodeFresh := fun n shown => entries.nodeFresh n (shown.resolve_left id)

theorem places_left (n : Nat) (below : l.first + n < l.operator) :
    l.place (l.first + n) = l.left + n := by
  rw [l.place_left (by omega) below]
  omega

theorem places_right (n : Nat) (below : l.operator + 1 + n < l.last) :
    l.place (l.operator + 1 + n) = l.right + n := by
  have := l.ordered
  rw [l.place_right (by omega) (by omega)]
  omega

/-- What is behind the operands.  From there on nothing has another reference. -/
def crossing (names : Renaming) (token : names.token = l.place)
    (types nodes further beyond : Nat)
    (tyFixed : ∀ id : TyId, id.index < types ∨ further ≤ id.index -> names.ty id = id)
    (nodeFixed : ∀ id : NodeId, id.index < nodes ∨ beyond ≤ id.index ->
      names.node id = id) :
    Crossing where
  behind :=
    { tokens := l.tokens
      other := l.other
      names := names
      low := l.behind
      high := 0
      base := l.rest
      tyLow := further
      tyHigh := 0
      tyBase := further
      nodeLow := beyond
      nodeHigh := 0
      nodeBase := beyond
      whole := True
      plain := False
      anchor := .initial l.tokens
      ground := .empty
      sound := l.sound
      ended := l.ended
      alike := fun n _ =>
        let same := Token.content_eq (l.ends n)
        ⟨same.1, same.2.1⟩
      lines := fun _ n _ => (Token.content_eq (l.ends n)).2.2
      places := fun n _ => by
        rw [token, l.place_rest (Nat.le_add_right _ _), Nat.add_sub_cancel_left]
      spelled := fun tok identifier => by
        rw [token]
        exact l.spelled tok identifier
      quiet := False.elim
      loud := fun never _ => never
      tyFresh := fun n _ => tyFixed _ (.inr (Nat.le_add_right _ _))
      nodeFresh := fun n _ => nodeFixed _ (.inr (Nat.le_add_right _ _)) }
  whole := trivial
  braced := id
  start := l.first
  types := types
  nodes := nodes
  alike := fun n below => by
    have same := Token.content_eq (l.front n (by simpa using below))
    rw [Nat.zero_add] at same
    exact ⟨same.1, same.2.1⟩
  lines := fun n most => by
    rcases Nat.lt_or_eq_of_le most with below | rfl
    · have same := Token.content_eq (l.front n (by simpa using below))
      rw [Nat.zero_add] at same
      exact same.2.2
    · exact l.line
  places := fun n below => by
    change names.token n = n
    rw [token, l.place_front below]
  opened := l.opened
  second := l.second
  tyFixed := fun id below => tyFixed id (.inl below)
  nodeFixed := fun id below => nodeFixed id (.inl below)

end Placement
end Grammar
end MiniC
