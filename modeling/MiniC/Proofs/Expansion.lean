import MiniC.Compile
import MiniC.Proofs.Declarator.Settles
import MiniC.Proofs.Emit.Renaming
import MiniC.Proofs.Grammar.Expansion.Occurrences
import MiniC.Proofs.Grammar.Expansion.Pointers
import MiniC.Proofs.Grammar.Expansion.Sums
import MiniC.Proofs.Grammar.Units

/-!
# Subscripts, arrows and sums written out

`x[y]` means `(*((x)+(y)))`, `p->m` means `((*(p)).m)`, and if `n` is a number and `q` a
pointer, `n + q` means `((q)+(n))`.  Where the parser comes to the one, it may be replaced
by the other: the file is then accepted if and only if it was accepted before, and it has
the same trees under other references, and the same assembly text.
-/

namespace MiniC

open Grammar

/-! ## Expansions -/

/-- A piece of an expansion: a symbol, or the tokens of an operand from one index up to
another. -/
inductive Piece
  | symbol (text : String)
  | operand (low high : Nat)

namespace Piece

/-- What a subscript means, by its first token, its brackets and the operands between
them. -/
def subscript (first opening closing : Nat) : List Piece :=
  [symbol "(", symbol "*", symbol "(", symbol "(", operand first opening,
    symbol ")", symbol "+", symbol "(", operand (opening + 1) closing, symbol ")",
      symbol ")", symbol ")"]

/-- What an arrow means, with the name of a member behind it. -/
def arrow (first operator : Nat) : List Piece :=
  [symbol "(", symbol "(", symbol "*", symbol "(", operand first operator,
    symbol ")", symbol ")", symbol ".", operand (operator + 1) (operator + 2), symbol ")"]

/-- What a number plus a pointer means. -/
def sum (first operator behind : Nat) : List Piece :=
  [symbol "(", symbol "(", operand (operator + 1) behind, symbol ")",
    symbol "+", symbol "(", operand first operator, symbol ")", symbol ")"]

end Piece

namespace TokenStream

variable (tokens other : TokenStream)

/-- Whether the tokens from a place up to another are those of an expansion. -/
def SpellsOut : List Piece -> Nat -> Nat -> Prop
  | [], place, behind => behind = place
  | .symbol text :: pieces, place, behind =>
      (other.get place).isSymbol text = true ∧ SpellsOut pieces (place + 1) behind
  | .operand low high :: pieces, place, behind =>
      tokens.Copies other low high place ∧ SpellsOut pieces (place + (high - low)) behind

instance (low high base : Nat) : Decidable (tokens.Copies other low high base) :=
  decidable_of_iff (∀ index < high - low,
      (other.get (base + index)).content = (tokens.get (low + index)).content)
    ⟨fun same index below => same index (by omega),
      fun copies index below => copies index (by omega)⟩

instance decidableSpellsOut : (pieces : List Piece) -> (place behind : Nat) ->
    Decidable (tokens.SpellsOut other pieces place behind)
  | [], place, behind => inferInstanceAs (Decidable (behind = place))
  | .symbol text :: pieces, place, behind =>
      have := decidableSpellsOut pieces (place + 1) behind
      inferInstanceAs (Decidable ((other.get place).isSymbol text = true ∧
        tokens.SpellsOut other pieces (place + 1) behind))
  | .operand low high :: pieces, place, behind =>
      have := decidableSpellsOut pieces (place + (high - low)) behind
      inferInstanceAs (Decidable (tokens.Copies other low high place ∧
        tokens.SpellsOut other pieces (place + (high - low)) behind))

/-- Past the ends of both streams there is nothing to compare. -/
theorem Ends.of_le {tokens other : TokenStream} {low base most : Nat}
    (own : tokens.last ≤ low + most) (also : other.last ≤ base + most)
    (same : ∀ index ≤ most,
      (other.get (base + index)).content = (tokens.get (low + index)).content) :
    tokens.Ends other low base := by
  intro index
  rcases Nat.le_total index most with le | beyond
  · exact same index le
  · have last := same most (Nat.le_refl _)
    rw [TokenStream.get_of_last_le own, TokenStream.get_of_last_le also] at last
    rw [TokenStream.get_of_last_le (by omega),
      TokenStream.get_of_last_le (by omega), last]

/-- Another stream with an expansion in place of the tokens from one index up to another.
The other tokens and those of the operands are the same and on the same lines, and the
expansion begins on the line of what it stands for. -/
structure Replaces (first behind : Nat) (pieces : List Piece) : Prop where
  front : tokens.Copies other 0 first 0
  line : (other.get first).line = (tokens.get first).line
  rest : ∃ place, tokens.SpellsOut other pieces first place ∧
    tokens.Ends other behind place

end TokenStream

/-- An occurrence of a subscript, of an arrow, or of a sum of a number and a pointer in
the tokens of a file, from one index up to another, with its expansion.  The parser comes
to read it in a function body, as a postfix expression or as a sum, and it reads the
operands.  Of a subscript and of an arrow their types may be such that it then rejects the
whole.  A sum has no string literals and no braces in it, and so neither statement
expressions nor lists of members. -/
inductive Expands (tokens : TokenStream) : Nat -> Nat -> List Piece -> Prop
  | subscript {deep : Nat} {state start middle after : State}
      {first pointer index : NodeId} (calls : Calls tokens trailer deep state)
      (head : primary (productions deep) state = .ok first start)
      (rounds : Rounds (trailerRound (productions deep)) first start pointer middle)
      (opening : middle.sees "[" = true)
      (inner : (productions deep).expr middle.next = .ok index after)
      (closing : after.sees "]" = true) :
      Expands tokens state.pos (after.pos + 1)
        (Piece.subscript state.pos middle.pos after.pos)
  | arrow {deep : Nat} {state start middle : State} {first pointer : NodeId}
      (calls : Calls tokens trailer deep state)
      (head : primary (productions deep) state = .ok first start)
      (rounds : Rounds (trailerRound (productions deep)) first start pointer middle)
      (operator : middle.sees "->" = true)
      (named : middle.next.current.isIdentifier = true) :
      Expands tokens state.pos (middle.pos + 2) (Piece.arrow state.pos middle.pos)
  | sum {deep : Nat} {state start middle after : State} {first number pointer : NodeId}
      {left right : Ty}
      (calls : Calls tokens (parserAt · 6) deep state)
      (head : parserAt (productions deep) 7 state = .ok first start)
      (rounds : Rounds (chainRound (joinsAt 6) (parserAt (productions deep) 7))
        first start number middle)
      (operator : middle.sees "+" = true)
      (second : parserAt (productions deep) 7 middle.next = .ok pointer after)
      (numberTy : after.program.nodeTy number = .ok left)
      (integer : left.isInteger = true)
      (pointerTy : after.program.nodeTy pointer = .ok right)
      (based : right.base?.isSome = true)
      (plain : ∀ index, state.pos ≤ index -> index < after.pos ->
        (tokens.get index).isSymbol openBrace = false ∧
          (tokens.get index).kind.string? = none) :
      Expands tokens state.pos after.pos (Piece.sum state.pos middle.pos after.pos)

/-! ## What an expansion consists of -/

section

variable {tokens other : TokenStream} {first behind : Nat} {pieces : List Piece}

theorem isSymbol_of_eq {a b : Nat} {symbol : String} (same : a = b)
    (here : (other.get a).isSymbol symbol = true) :
    (other.get b).isSymbol symbol = true :=
  same ▸ here

/-- A place at which the parser goes on alike. -/
def Expands.Crossed (tokens other : TokenStream) : Prop :=
  ∃ x : Crossing, x.behind.tokens = tokens ∧ x.behind.other = other ∧
    x.behind.nodeLow = x.behind.nodeBase ∧
      ∃ target deep there, Calls tokens target deep there ∧
        ∀ more, x.Crosses True there (target (productions deep))
          (target (productions more))

variable (sound : tokens.Sound) (ended : other.eof.kind = .eof)

include sound ended

theorem crossed_subscript {deep : Nat} {state start middle after : State}
    {head pointer index : NodeId} (calls : Calls tokens trailer deep state)
    (first : primary (productions deep) state = .ok head start)
    (rounds : Rounds (trailerRound (productions deep)) head start pointer middle)
    (opening : middle.sees "[" = true)
    (inner : (productions deep).expr middle.next = .ok index after)
    (closing : after.sees "]" = true)
    (replaces : tokens.Replaces other state.pos (after.pos + 1)
      (Piece.subscript state.pos middle.pos after.pos)) :
    Expands.Crossed tokens other := by
  obtain ⟨front, line, rest, spells, ends⟩ := replaces
  obtain ⟨opened, star, outer, inside, lefts, closesLeft, plus, opensRight,
    rights, closesRight, closesSum, closes, rfl⟩ := spells
  have within := calls.within sound
  obtain ⟨begins, passed⟩ := primary_passes sound within first
  have onward := added_of_trailers sound begins.within rounds
  have beyond : middle.next.Within tokens :=
    ⟨onward.within.same, lt_last sound.ended onward.within.same
      (kind_ne_eof_of_isSymbol opening), onward.within.types⟩
  obtain ⟨added, further⟩ := expr_passes sound beyond inner
  have forward := onward.forward
  change middle.pos + 1 < after.pos at further
  have openingAt : (tokens.get middle.pos).isSymbol "[" = true :=
    onward.within.same ▸ opening
  have closingAt : (tokens.get after.pos).isSymbol "]" = true :=
    added.within.same ▸ closing
  let l : Placement :=
    { tokens := tokens
      other := other
      sound := sound
      ended := ended
      first := state.pos
      operator := middle.pos
      last := after.pos
      behind := after.pos + 1
      left := state.pos + 4
      right := middle.pos + 7
      rest := after.pos + 9
      ordered := by omega
      front := front
      line := line
      lefts := lefts
      rights := by
        convert rights using 1
        omega
      ends := by
        convert ends using 1
        omega
      nameless := fun index at_ => by
        obtain rfl | rfl : index = middle.pos ∨ index = after.pos := by omega
        · exact Token.isIdentifier_eq_false openingAt
        · exact Token.isIdentifier_eq_false closingAt
      opened := opened
      second := .inr star }
  have spells : l.SpellsIndex :=
    { left := rfl
      right := rfl
      rest := rfl
      star := star
      outer := outer
      inner := inside
      closesLeft := isSymbol_of_eq (b := middle.pos + 4) (by omega) closesLeft
      plus := isSymbol_of_eq (b := middle.pos + 5) (by omega) plus
      opensRight := isSymbol_of_eq (b := middle.pos + 6) (by omega) opensRight
      closesRight := isSymbol_of_eq (b := after.pos + 6) (by omega) closesRight
      closesSum := isSymbol_of_eq (b := after.pos + 7) (by omega) closesSum
      closes := isSymbol_of_eq (b := after.pos + 8) (by omega) closes }
  exact ⟨l.crossingKept state, rfl, rfl, rfl, trailer, deep, state, calls,
    spells.crosses rfl rfl first rounds rfl opening inner rfl closing⟩

theorem crossed_arrow {deep : Nat} {state start middle : State} {head pointer : NodeId}
    (calls : Calls tokens trailer deep state)
    (first : primary (productions deep) state = .ok head start)
    (rounds : Rounds (trailerRound (productions deep)) head start pointer middle)
    (operator : middle.sees "->" = true) (named : middle.next.current.isIdentifier = true)
    (replaces : tokens.Replaces other state.pos (middle.pos + 2)
      (Piece.arrow state.pos middle.pos)) : Expands.Crossed tokens other := by
  obtain ⟨front, line, rest, spells, ends⟩ := replaces
  obtain ⟨opened, outer, star, inside, lefts, closesLeft, closesStar, dot, rights,
    closes, rfl⟩ := spells
  have within := calls.within sound
  obtain ⟨begins, passed⟩ := primary_passes sound within first
  have onward := added_of_trailers sound begins.within rounds
  have forward := onward.forward
  have operatorAt : (tokens.get middle.pos).isSymbol "->" = true :=
    onward.within.same ▸ operator
  let l : Placement :=
    { tokens := tokens
      other := other
      sound := sound
      ended := ended
      first := state.pos
      operator := middle.pos
      last := middle.pos + 2
      behind := middle.pos + 2
      left := state.pos + 4
      right := middle.pos + 7
      rest := middle.pos + 9
      ordered := by omega
      front := front
      line := line
      lefts := lefts
      rights := by
        convert rights using 1
        omega
      ends := by
        convert ends using 1
        omega
      nameless := fun index at_ => by
        obtain rfl : index = middle.pos := by omega
        exact Token.isIdentifier_eq_false operatorAt
      opened := opened
      second := .inl outer }
  have spells : l.SpellsArrow :=
    { left := rfl
      right := rfl
      rest := rfl
      outer := outer
      star := star
      inner := inside
      closesLeft := isSymbol_of_eq (b := middle.pos + 4) (by omega) closesLeft
      closesStar := isSymbol_of_eq (b := middle.pos + 5) (by omega) closesStar
      dot := isSymbol_of_eq (b := middle.pos + 6) (by omega) dot
      closes := isSymbol_of_eq (b := middle.pos + 8) (by omega) closes }
  exact ⟨l.crossingKept state, rfl, rfl, rfl, trailer, deep, state, calls,
    spells.crosses rfl rfl rfl first rounds rfl operator named⟩

theorem crossed_sum {deep : Nat} {state start middle after : State}
    {head number pointer : NodeId} {left right : Ty}
    (calls : Calls tokens (parserAt · 6) deep state)
    (first : parserAt (productions deep) 7 state = .ok head start)
    (rounds : Rounds (chainRound (joinsAt 6) (parserAt (productions deep) 7))
      head start number middle)
    (operator : middle.sees "+" = true)
    (second : parserAt (productions deep) 7 middle.next = .ok pointer after)
    (numberTy : after.program.nodeTy number = .ok left) (integer : left.isInteger = true)
    (pointerTy : after.program.nodeTy pointer = .ok right)
    (based : right.base?.isSome = true)
    (plain : ∀ index, state.pos ≤ index -> index < after.pos ->
      (tokens.get index).isSymbol openBrace = false ∧
        (tokens.get index).kind.string? = none)
    (replaces : tokens.Replaces other state.pos after.pos
      (Piece.sum state.pos middle.pos after.pos)) : Expands.Crossed tokens other := by
  obtain ⟨front, line, rest, spells, ends⟩ := replaces
  obtain ⟨opened, opensRight, rights, closesRight, plus, opensLeft, lefts,
    closesLeft, closes, rfl⟩ := spells
  have within := calls.within sound
  obtain ⟨begins, passed⟩ := parserAt_passes sound within (by decide) first
  have onward := added_of_terms sound begins.within rounds
  have beyond : middle.next.Within tokens :=
    ⟨onward.within.same, lt_last sound.ended onward.within.same
      (kind_ne_eof_of_isSymbol operator), onward.within.types⟩
  obtain ⟨added, further⟩ := parserAt_passes sound beyond (by decide) second
  have forward := onward.forward
  change middle.pos + 1 < after.pos at further
  have operatorAt : (tokens.get middle.pos).isSymbol "+" = true :=
    onward.within.same ▸ operator
  let l : Placement :=
    { tokens := tokens
      other := other
      sound := sound
      ended := ended
      first := state.pos
      operator := middle.pos
      last := after.pos
      behind := after.pos
      left := state.pos + 2 + (after.pos - (middle.pos + 1)) + 3
      right := state.pos + 2
      rest := state.pos + 2 + (after.pos - (middle.pos + 1)) + 3 +
        (middle.pos - state.pos) + 2
      ordered := by omega
      front := front
      line := line
      lefts := lefts
      rights := rights
      ends := ends
      nameless := fun index at_ => by
        obtain rfl : index = middle.pos := by omega
        exact Token.isIdentifier_eq_false operatorAt
      opened := opened
      second := .inl opensRight }
  have spells : l.SpellsSum :=
    { right := rfl
      left := rfl
      rest := rfl
      opensRight := opensRight
      closesRight := closesRight
      plus := plus
      opensLeft := opensLeft
      closesLeft := closesLeft
      closes := closes }
  let s : l.Sum :=
    { deep := deep
      state := state
      start := start
      middle := middle
      after := after
      first := head
      number := number
      pointer := pointer
      here := rfl
      head := first
      rounds := rounds
      operator := rfl
      sign := operator
      second := second
      last := rfl
      behind := rfl
      plain := plain }
  exact ⟨s.crossing, rfl, rfl, rfl, (parserAt · 6), deep, state, calls,
    s.crosses spells numberTy integer pointerTy based⟩

end

/-! ## The same programs -/

/-- Streams that are read alike up to their ends give the same program under other
references, or both are rejected. -/
theorem parse_of_ends {w : Window} (whole : w.whole) (nodeLow : w.nodeLow = w.nodeBase)
    (sound : w.tokens.Sound) (alsoSound : w.other.Sound)
    (ends : w.Ends (unit (productions (w.tokens.last + 1)) (.initial w.tokens))
      (unit (productions (w.other.last + 1)) (.initial w.other))) :
    (∃ program expanded, parse w.tokens = .ok program ∧ parse w.other = .ok expanded ∧
      program.Renames w.names True expanded ∧ expanded.nodes.size = program.nodes.size) ∨
    ∃ error also, parse w.tokens = .error error ∧ parse w.other = .error also := by
  have halts {tokens : TokenStream} (sound : tokens.Sound) {error : Error} {after : State}
      (run : unit (productions (tokens.last + 1)) (.initial tokens) =
        .error error after) :
      parse tokens = .error error ∧ error ≠ .fault .endless := by
    have failed : parse tokens = .error error := by
      unfold parse
      rw [run]
    rcases parse_cases sound with ⟨program, parsed, -⟩ | ⟨other, same, cause,
      index, rfl, -⟩
    · cases failed.symm.trans parsed
    · obtain rfl := Except.error.inj (failed.symm.trans same)
      exact ⟨failed, nofun⟩
  cases run : unit (productions (w.tokens.last + 1)) (.initial w.tokens) with
  | ok value after =>
      have parsed : parse w.tokens = .ok after.program := by
        unfold parse
        rw [run]
      rcases ends.ok value after run with ⟨last, gaveUp⟩ | ⟨reached, alsoRun, linked⟩
      · exact absurd rfl (halts alsoSound gaveUp).2
      · have alsoParsed : parse w.other = .ok reached.program := by
          unfold parse
          rw [alsoRun]
        have exact_ := linked.tables.exact
        have size := linked.tables.nodeSize
        refine .inl ⟨_, _, parsed, alsoParsed,
          ⟨⟨exact_.types.found, fun _ => ?_⟩, exact_.found,
          fun _ => exact_.missing whole, exact_.symbols, exact_.globals⟩, by omega⟩
        exact exact_.types.missing whole
  | error error after =>
      obtain ⟨failed, ending⟩ := halts sound run
      obtain ⟨also, last, alsoRun⟩ := ends.error whole error after run ending
      exact .inr ⟨error, also, failed, (halts alsoSound alsoRun).1⟩

/-- A subscript, an arrow, or a sum of a number and a pointer may be replaced by its
expansion on the same lines.  The parser accepts both files or neither, and it finds the
same nodes, types and symbols under other references.  The assembly text is the same, or
neither has any. -/
theorem expansion_means_the_same {file also : SourceFile} {tokens others : TokenStream}
    {first behind : Nat} {pieces : List Piece} (cut : tokenize file = .ok tokens)
    (alsoCut : tokenize also = .ok others) (name : also.name = file.name)
    (expands : Expands tokens first behind pieces)
    (replaces : tokens.Replaces others first behind pieces) :
    ((∃ program expanded, parse tokens = .ok program ∧ parse others = .ok expanded ∧
        ∃ names : Renaming, program.Renames names True expanded) ∨
      ∃ error other, parse tokens = .error error ∧ parse others = .error other) ∧
    (compile also).toOption = (compile file).toOption := by
  have sound := sound_of_tokenize cut
  have alsoSound := sound_of_tokenize alsoCut
  have crossed : Expands.Crossed tokens others := by
    cases expands with
    | subscript calls head rounds opening inner closing =>
        exact crossed_subscript sound alsoSound.ended calls head rounds
          opening inner closing replaces
    | arrow calls head rounds operator named =>
        exact crossed_arrow sound alsoSound.ended calls head rounds operator
          named replaces
    | sum calls head rounds operator second numberTy integer pointerTy based plain =>
        exact crossed_sum sound alsoSound.ended calls head rounds operator second
          numberTy integer pointerTy based plain replaces
  obtain ⟨x, rfl, rfl, nodeLow, target, deep, there, calls, crosses⟩ := crossed
  have compiled {file : SourceFile} {tokens : TokenStream}
      (cut : tokenize file = .ok tokens) :
      compile file = (parse tokens >>= fun program =>
          Emit.program program file.name >>= fun lines =>
        .ok (Asm.Code.render lines)) := by
    unfold compile compileLines parseFile
    rw [cut]
    cases parsed : parse tokens <;> simp [parsed, bind, Except.bind, pure, Except.pure]
  rw [compiled cut, compiled alsoCut, name]
  rcases parse_of_ends x.whole nodeLow sound alsoSound
      (calls.ends crosses (x.behind.other.last + 1)) with
    ⟨program, expanded, parsed, alsoParsed, renames, size⟩ | ⟨error, other,
      failed, alsoFailed⟩
  · refine ⟨.inl ⟨program, expanded, parsed, alsoParsed, _, renames⟩, ?_⟩
    rw [parsed, alsoParsed]
    have agrees : Emit.Agrees
        (Emit.program program file.name >>= fun lines => .ok (Asm.Code.render lines))
        (Emit.program expanded file.name >>= fun lines => .ok (Asm.Code.render lines)) :=
      .bind_same (Emit.program_agrees renames size file.name) fun _ => .of_eq rfl
    exact agrees
  · refine ⟨.inr ⟨error, other, failed, alsoFailed⟩, ?_⟩
    rw [failed, alsoFailed]
    rfl

/-- A file in which a number and a pointer are added. -/
def steppedFile : SourceFile := ⟨"t.c", "int *f(int *p)\x7breturn 1+p;\x7d"⟩

/-- The same file with the expansion of the sum. -/
def writtenOutFile : SourceFile := ⟨"t.c", "int *f(int *p)\x7breturn ((p)+(1));\x7d"⟩

/-- The tokens of the files. -/
def steppedTokens : TokenStream :=
  (tokenize steppedFile).toOption.getD ⟨#[], ⟨.eof, "", 0, 1⟩⟩

def writtenOutTokens : TokenStream :=
  (tokenize writtenOutFile).toOption.getD ⟨#[], ⟨.eof, "", 0, 1⟩⟩

/-- What a parser gives from a state, and the state behind it. -/
def ranTo {α : Type} (parser : Parser α) (otherwise : α) (state : State) : α × State :=
  match parser state with
  | .ok value after => (value, after)
  | .error _ after => (otherwise, after)

theorem run_of_succeeds {α : Type} {parser : Parser α} (otherwise : α) {state : State}
    (succeeds : Succeeds parser state) :
    parser state =
      .ok (ranTo parser otherwise state).1 (ranTo parser otherwise state).2 := by
  obtain ⟨value, after, run⟩ := succeeds
  unfold ranTo
  rw [run]

/-- The specifiers of the function, its declarator, its parameters and the beginning of
its body, and the operands of the sum. -/
def steppedSpecifiers : (TyId × Storage) × State :=
  ranTo (specifiers (productions 16) true) (.int, ⟨false, false⟩) (.initial steppedTokens)

def steppedDeclarator : Declarator × State :=
  ranTo (declarator (productions 16) steppedSpecifiers.1.1)
    ⟨.int, none, 0⟩ steppedSpecifiers.2

def steppedFunction : (TyId × List Param) × State :=
  ranTo (functionHead steppedDeclarator.1 steppedSpecifiers.1.2)
    (.int, []) steppedDeclarator.2

def steppedBody : Unit × State :=
  ranTo (bodyHead steppedFunction.1.1 steppedFunction.1.2) () steppedFunction.2

def steppedNumber : NodeId × State :=
  ranTo (parserAt (productions 15) 7) ⟨0⟩ steppedBody.2.entered.next

def steppedPointer : NodeId × State :=
  ranTo (parserAt (productions 15) 7) ⟨0⟩ steppedNumber.2.next

/-- The parser comes to the sum. -/
theorem steppedTokens_calls :
    Calls steppedTokens (parserAt · 6) 15 steppedBody.2.entered.next := by
  have depth : steppedTokens.last + 1 = 16 := by decide +kernel
  have succeeds : Succeeds (specifiers (productions 16) true) (.initial steppedTokens) ∧
      Succeeds (declarator (productions 16) steppedSpecifiers.1.1) steppedSpecifiers.2 ∧
      Succeeds (functionHead steppedDeclarator.1 steppedSpecifiers.1.2)
        steppedDeclarator.2 ∧
      Succeeds (bodyHead steppedFunction.1.1 steppedFunction.1.2) steppedFunction.2 := by
    decide +kernel
  have heads : (State.initial steppedTokens).current.isEof = false ∧
      steppedSpecifiers.1.2.isTypedef = false ∧ steppedSpecifiers.2.sees ";" = false ∧
      steppedFunction.2.sees ";" = false := by decide +kernel
  have statement : steppedBody.2.entered.sees closeBrace = false ∧
      steppedBody.2.entered.current.isEof = false ∧
      steppedBody.2.entered.startsType steppedBody.2.entered.pos = false ∧
      steppedBody.2.entered.sees "return" = true ∧
      steppedBody.2.entered.next.sees ";" = false := by decide +kernel
  obtain ⟨specified, declares, head, opens⟩ := succeeds
  obtain ⟨more, untyped, open_, defined⟩ := heads
  obtain ⟨braceless, further, typeless, word, valued⟩ := statement
  have defines : Defines (productions 16) (.initial steppedTokens) steppedBody.2 :=
    .intro _ _ _ _ _ _ _ _ more (run_of_succeeds _ specified) untyped open_
      (run_of_succeeds _ declares) (run_of_succeeds _ head) defined
        (run_of_succeeds _ opens)
  have sum : Comes (parserAt · 6) 15 steppedBody.2.entered.next (parserAt · 2) 15
      steppedBody.2.entered.next :=
    .firstOperand (by decide) (by decide) <| .firstOperand (by decide) (by decide) <|
      .firstOperand (by decide) (by decide) <| .firstOperand (by decide) (by decide) .here
  refine .intro _ _ (.none _ _) (depth ▸ defines) ?_
  rw [depth]
  exact .item (.none _ _) braceless further typeless <| .returned word valued <|
    .expr <| .commaLeft <| .assignLeft sum

/-- The sum is followed by a semicolon. -/
theorem steppedTokens_expands :
    Expands steppedTokens 10 13 (Piece.sum 10 11 13) := by
  have succeeds : Succeeds (parserAt (productions 15) 7) steppedBody.2.entered.next ∧
      Succeeds (parserAt (productions 15) 7) steppedNumber.2.next := by decide +kernel
  have places : steppedBody.2.entered.next.pos = 10 ∧ steppedNumber.2.pos = 11 ∧
      steppedPointer.2.pos = 13 ∧ steppedNumber.2.sees "+" = true := by decide +kernel
  have types :
      (steppedPointer.2.program.nodeTy steppedNumber.1).toOption.map
        Ty.isInteger = some true ∧
      (steppedPointer.2.program.nodeTy steppedPointer.1).toOption.map (·.base?.isSome) =
        some true := by decide +kernel
  have plain : ∀ index < 13, 10 ≤ index ->
      (steppedTokens.get index).isSymbol openBrace = false ∧
        (steppedTokens.get index).kind.string? = none := by decide +kernel
  obtain ⟨first, operator, behind, sign⟩ := places
  obtain ⟨left, numberTy, integer⟩ := exists_eq_ok_of_map types.1
  obtain ⟨right, pointerTy, based⟩ := exists_eq_ok_of_map types.2
  have head : parserAt (productions 15) 7 steppedBody.2.entered.next =
      .ok steppedNumber.1 steppedNumber.2 := run_of_succeeds _ succeeds.1
  have second : parserAt (productions 15) 7 steppedNumber.2.next =
      .ok steppedPointer.1 steppedPointer.2 := run_of_succeeds _ succeeds.2
  have expands := Expands.sum steppedTokens_calls head (.none _ _) sign second
    numberTy integer pointerTy based fun index low high =>
      plain index (Nat.lt_of_lt_of_eq high behind)
        (Nat.le_trans (Nat.le_of_eq first.symm) low)
  rwa [first, operator, behind] at expands

/-- The sum is written out in the other file. -/
theorem steppedTokens_replaces :
    steppedTokens.Replaces writtenOutTokens 10 13 (Piece.sum 10 11 13) := by
  have front : steppedTokens.Copies writtenOutTokens 0 10 0 ∧
      (writtenOutTokens.get 10).line = (steppedTokens.get 10).line ∧
      steppedTokens.SpellsOut writtenOutTokens (Piece.sum 10 11 13) 10 19 := by
    decide +kernel
  have ends : steppedTokens.last ≤ 13 + 2 ∧ writtenOutTokens.last ≤ 19 + 2 ∧
      ∀ index ≤ 2, (writtenOutTokens.get (19 + index)).content =
        (steppedTokens.get (13 + index)).content := by decide +kernel
  exact ⟨front.1, front.2.1, 19, front.2.2, .of_le ends.1 ends.2.1 ends.2.2⟩

/-- Both files have the same text, although the pointer is the first node in one of them
and the number in the other. -/
theorem steppedFile_means_writtenOutFile :
    (∃ text, compile steppedFile = .ok text ∧ compile writtenOutFile = .ok text) ∧
      ∃ program expanded, parse steppedTokens = .ok program ∧
        parse writtenOutTokens = .ok expanded ∧
        (∃ names : Renaming, program.Renames names True expanded) ∧
        (program.node? ⟨0⟩).map (·.kind) = some (.num 1) ∧
        (expanded.node? ⟨0⟩).map (·.kind) = some (.var ⟨1⟩) := by
  have cuts :
      (tokenize steppedFile).isOk = true ∧ (tokenize writtenOutFile).isOk = true := by
    decide +kernel
  have compiles : (compile steppedFile).isOk = true := by decide +kernel
  have number : (parse steppedTokens).toOption.map (fun program =>
      (program.node? ⟨0⟩).map (·.kind)) = some (some (.num 1)) := by decide +kernel
  have pointer : (parse writtenOutTokens).toOption.map (fun program =>
      (program.node? ⟨0⟩).map (·.kind)) = some (some (.var ⟨1⟩)) := by decide +kernel
  obtain ⟨program, parsed, numbered⟩ := exists_eq_ok_of_map number
  obtain ⟨expanded, alsoParsed, pointed⟩ := exists_eq_ok_of_map pointer
  obtain ⟨alike, same⟩ := expansion_means_the_same (eq_ok_of_isOk cuts.1)
    (eq_ok_of_isOk cuts.2) rfl steppedTokens_expands steppedTokens_replaces
  constructor
  · cases text : compile steppedFile with
    | error error =>
        rw [text] at compiles
        cases compiles
    | ok text_ =>
        rw [text] at same
        cases also : compile writtenOutFile with
        | error error =>
            rw [also] at same
            cases same
        | ok alsoText =>
            rw [also] at same
            obtain rfl := Option.some.inj same
            exact ⟨_, rfl, rfl⟩
  · rcases alike with ⟨_, _, first, second, renames⟩ | ⟨error, _, failed, _⟩
    · cases parsed.symm.trans first
      cases alsoParsed.symm.trans second
      exact ⟨program, expanded, parsed, alsoParsed, renames, numbered, pointed⟩
    · cases parsed.symm.trans failed

end MiniC
