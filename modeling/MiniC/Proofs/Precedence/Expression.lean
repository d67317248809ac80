import MiniC.Proofs.Precedence.Levels

/-!
# Written trees are read back

`Reads` says that the production of a level reads lexemes as a tree, whatever follows them
that the level leaves alone.  There is one lemma for each way to write a tree.  A chain of
one level is read by one loop, so `Chains` says what the loop does up to the end of the
lexemes, and leaves open how it goes on.
-/

namespace MiniC
namespace Grammar

open Precedence

variable {names : List Identifier} {locals : List SymbolId} {lexemes : List Lexeme}
  {tree : Tree names} {state : State}

/-- A parser reads so many tokens and gives the root of a tree, which is a number. -/
def Gives (locals : List SymbolId) (parser : Parser NodeId) (state : State) (count : Nat)
    (tree : Tree names) : Prop :=
  ∃ id after, parser state = .ok id after ∧ Walked state count after ∧
    after.program.Represents locals tree id ∧ after.program.IsNumber id

/-- The production of a level reads lexemes as a tree. -/
def Reads (locals : List SymbolId) (lexemes : List Lexeme) (least : Nat)
    (tree : Tree names) :
    Prop :=
  ∀ depth state next rest, Ready names locals state -> lexemes.length ≤ depth ->
    state.Shows (lexemes ++ .symbol next :: rest) -> Follower least next ->
    Gives locals (parserAt (productions depth) least) state lexemes.length tree

/-! ## The first lexeme -/

/-- The lexemes of a tree begin with a variable, a number, a parenthesis or an
operator. -/
def Begins (names : List Identifier) : List Lexeme -> Prop
  | .symbol text :: _ => text ∈ ["(", "-", "!", "~"]
  | .name name :: _ => name ∈ names
  | .number _ :: _ => True
  | [] => False

theorem Begins.append (begins : Begins names lexemes) (rest : List Lexeme) :
    Begins names (lexemes ++ rest) := by
  cases lexemes with
  | nil => exact begins.elim
  | cons first others => cases first <;> exact begins

theorem begins_enclose (begins : Begins names lexemes) (least own : Nat) :
    Begins names (enclose least own lexemes) := by
  unfold enclose
  split
  · exact List.mem_cons_self
  · exact begins

theorem begins_bare (tree : Tree names) : Begins names tree.bare := by
  induction tree with
  | literal value inRange => trivial
  | var name declared => exact declared
  | unary op operand => cases op <;> simp [Tree.bare, Begins, UnaryOp.text]
  | binary op lhs rhs left => exact (begins_enclose left _ _).append _
  | assign name declared value => exact declared
  | comma lhs rhs left => exact (begins_enclose left _ _).append _

/-- No statement keyword, brace or semicolon stands where an expression begins. -/
theorem Begins.sees_eq_false (begins : Begins names lexemes) (shows : state.Shows lexemes)
    {symbol : String} (other : symbol ∉ ["(", "-", "!", "~"]) :
    state.sees symbol = false := by
  obtain _ | ⟨first, rest⟩ := lexemes
  · exact begins.elim
  refine shows.sees_eq_false ?_
  cases first with
  | symbol text =>
      simp only [Lexeme.isSymbol, beq_eq_false_iff_ne]
      rintro rfl
      exact other begins
  | name name => rfl
  | number value => rfl

/-- No type name begins where an expression does. -/
theorem Begins.startsType_eq_false (begins : Begins names lexemes)
    (ready : Ready names locals state) (shows : state.Shows lexemes) :
    state.startsType state.pos = false := by
  refine ready.clean.startsType_eq_false
    fun keyword member => begins.sees_eq_false shows ?_
  have other : ∀ keyword ∈ State.typeKeywords, keyword ∉ ["(", "-", "!", "~"] := by decide
  exact other keyword member

/-! ## Looser levels -/

/-- What one level reads all looser levels read. -/
theorem Reads.lower {low high : Nat} (le : low ≤ high) (bounded : high ≤ 8)
    (reads : Reads locals lexemes high tree) : Reads locals lexemes low tree := by
  intro depth state next rest ready long shows follower
  obtain ⟨id, after, run, walked, root⟩ :=
    reads depth state next rest ready long shows (follower.mono le)
  exact ⟨id, after, parserAt_of_le le bounded run (walked.shows shows rfl) follower,
    walked, root⟩

/-! ## Names, numbers and parentheses -/

/-- A primary expression that begins with no unary operator is read by the tightest
level. -/
theorem cast_of_primary {again : Productions} {first : Lexeme} {rest : List Lexeme}
    {next : String} {least : Nat} {id : NodeId} {after : State} {behind : List Lexeme}
    (shows : state.Shows (first :: rest))
    (noOperator : ∀ symbol ∈ ["+", "-", "&", "*", "!", "~"],
      first.isSymbol symbol = false)
    (noType : first.isSymbol "(" = true -> state.startsType (state.pos + 1) = false)
    (run : primary again state = .ok id after)
    (further : after.Shows (.symbol next :: behind)) (follower : Follower least next) :
    cast again state = .ok id after := by
  rw [cast_of_operand shows noOperator noType]
  exact trailer_of_follower run further follower

theorem primary_of_number {again : Productions} {value : Nat} {rest : List Lexeme}
    (shows : state.Shows (.number value :: rest)) :
    primary again state = newNode (.num value) state.pos state.next := by
  have absent (symbol : String) : state.sees symbol = false := shows.sees_eq_false rfl
  have kind : state.current.kind = .num value := shows.current
  unfold primary
  rw [get_run, if_neg (by simp [absent]), accept_else (absent _), accept_else (absent _)]
  unfold atom
  rw [get_run, kind]
  exact bind_run (number_run (absent _) kind)

theorem Reads.literal (locals : List SymbolId) (value : Nat)
    (inRange : (value : Int) ≤ Extent.maxValue) :
    Reads locals [.number value] 8 (.literal value inRange : Tree names) := by
  intro depth state next rest ready long shows follower
  have walked := Walked.next state
  obtain ⟨id, after, run, entered, kind, number⟩ :=
    newNode_num (walked.ready ready) value state.pos
  have all := walked.trans entered
  refine ⟨id, after, ?_, all, kind, number⟩
  exact cast_of_primary shows (fun _ _ => rfl) (fun impossible => nomatch impossible)
    ((primary_of_number shows).trans run) (all.shows shows rfl) follower

theorem primary_of_name {again : Productions} {name : Identifier} {symbol : SymbolId}
    {next : String} {least : Nat} {rest : List Lexeme}
    (shows : state.Shows (.name name :: .symbol next :: rest))
    (follower : Follower least next)
    (bound : state.scopes.lookupVariable? name.text = some (.object symbol)) :
    primary again state = newNode (.var symbol) state.pos state.next := by
  have absent (symbol : String) : state.sees symbol = false := shows.sees_eq_false rfl
  obtain ⟨kind, text⟩ :
      state.current.kind = .identifier ∧ state.current.text = name.text :=
    shows.current
  have identifier : state.current.isIdentifier = true := by
    rw [Token.isIdentifier, kind]
    rfl
  have noCall : state.seesAt (state.pos + 1) "(" = false := by
    apply State.sees_eq_false shows.next.sees
    rintro rfl
    exact follower.not_mem (by decide)
  unfold primary
  rw [get_run, if_neg (by simp [absent]), accept_else (absent _), accept_else (absent _)]
  unfold atom
  rw [get_run, kind]
  change (if state.seesAt (state.pos + 1) "(" = true then _ else _ : Parser NodeId)
    state = _
  rw [if_neg (by simp [noCall])]
  unfold variableReference
  have boundThen : state.next.scopes.lookupVariable? name.text = some (.object symbol) :=
    bound
  rw [bind_run (identifier_run identifier)]
  dsimp only
  rw [get_run, text, boundThen]

/-- A variable is read by every level. -/
theorem parserAt_of_name (again : Productions) {name : Identifier}
    {next : String} {least : Nat}
    {rest : List Lexeme} (ready : Ready names locals state) (declared : name ∈ names)
    (shows : state.Shows (.name name :: .symbol next :: rest)) (tight : least ≤ 8)
    (follower : Follower least next) :
    ∃ id after symbol, parserAt again least state = .ok id after ∧ Walked state 1 after ∧
      after.program.kind? id = some (.var symbol) ∧
      after.program.IsVariable locals name symbol ∧
      after.program.HasTy id .int ⟨.int, 4, 4, none⟩ := by
  obtain ⟨symbol, bound, is⟩ := ready.declared name declared
  have walked := Walked.next state
  obtain ⟨id, after, run, entered, kind, typed⟩ :=
    newNode_var (walked.ready ready) is state.pos
  have all := walked.trans entered
  have further := all.shows_tail shows
  refine ⟨id, after, symbol, ?_, all, kind, all.extends_.grows.isVariable is, typed⟩
  have tightest : parserAt again 8 state = .ok id after :=
    cast_of_primary shows (fun _ _ => rfl) (fun impossible => nomatch impossible)
      ((primary_of_name shows follower bound).trans run) further follower
  exact parserAt_of_le tight (Nat.le_refl 8) tightest further follower

theorem Reads.var {name : Identifier} (declared : name ∈ names) :
    Reads locals [.name name] 8 (.var name declared : Tree names) := by
  intro depth state next rest ready long shows follower
  obtain ⟨id, after, symbol, run, walked, kind, is, typed⟩ :=
    parserAt_of_name (productions depth) ready declared shows (Nat.le_refl 8) follower
  exact ⟨id, after, run, walked, ⟨symbol, kind, is⟩, .inl typed⟩

/-- A tree of any level is read in parentheses. -/
theorem Reads.parenthesized (reads : Reads locals lexemes 0 tree)
    (begins : Begins names lexemes) :
    Reads locals (.symbol "(" :: lexemes ++ [.symbol ")"]) 8 tree := by
  intro depth state next rest ready long shows follower
  rw [List.cons_append, List.cons_append, List.append_assoc] at shows
  obtain ⟨depth, rfl⟩ : ∃ less, depth = less + 1 := ⟨depth - 1, by simp at long; omega⟩
  have opened := Walked.next state
  have inside := shows.next
  obtain ⟨id, middle, run, walked, root, number⟩ :=
    reads depth state.next ")" (.symbol next :: rest) (opened.ready ready)
      (by simp at long; omega) inside .parenthesis
  have closing := walked.shows inside rfl
  have closed := Walked.next middle
  have all := (opened.trans walked).trans closed
  have starts := begins.append (Lexeme.symbol ")" :: Lexeme.symbol next :: rest)
  have primaryRun : primary (productions (depth + 1)) state = .ok id middle.next := by
    have noBrace : state.seesAt (state.pos + 1) openBrace = false :=
      (starts.sees_eq_false inside (by decide) : state.next.sees openBrace = false)
    unfold primary
    rw [get_run, if_neg (by simp [noBrace]), accept_then shows.sees]
    refine (bind_run run).trans ?_
    rw [bind_run (expect_run closing.sees)]
    rfl
  refine ⟨id, middle.next, ?_, ?_, root, number⟩
  · refine cast_of_primary shows ?_ (fun _ => ?_) primaryRun closing.next follower
    · decide
    · exact starts.startsType_eq_false (opened.ready ready) inside
  · have length : (Lexeme.symbol "(" :: lexemes ++ [Lexeme.symbol ")"]).length =
        1 + lexemes.length + 1 := by simp; omega
    rw [length]
    exact all

/-! ## Operators that group to the right -/

theorem Reads.unary (op : UnaryOp) (reads : Reads locals lexemes 8 tree) :
    Reads locals (.symbol op.text :: lexemes) 8 (.unary op tree) := by
  intro depth state next rest ready long shows follower
  obtain ⟨depth, rfl⟩ : ∃ less, depth = less + 1 := ⟨depth - 1, by simp at long; omega⟩
  have opened := Walked.next state
  obtain ⟨operand, middle, run, walked, root, number⟩ :=
    reads depth state.next next rest (opened.ready ready)
      (by simpa using long) shows.next follower
  have further := opened.trans walked
  obtain ⟨id, after, unaryRun, entered, kind, result⟩ :=
    newNode_unary (further.ready ready) op number state.pos
  refine ⟨id, after, ?_, ?_, ⟨operand, kind, entered.extends_.grows.represents root⟩,
    result⟩
  · change cast (productions (depth + 1)) state = _
    rw [cast_of_operator shows]
    exact (bind_run run).trans unaryRun
  · rw [List.length_cons, Nat.add_comm]
    exact further.trans entered

theorem Reads.comma {left right : List Lexeme} {lhs rhs : Tree names}
    (first : Reads locals left 1 lhs) (second : Reads locals right 0 rhs) :
    Reads locals (left ++ .symbol "," :: right) 0 (.comma lhs rhs) := by
  intro depth state next rest ready long shows follower
  rw [List.length_append, List.length_cons] at long
  rw [List.append_assoc, List.cons_append] at shows
  obtain ⟨depth, rfl⟩ : ∃ less, depth = less + 1 := ⟨depth - 1, by omega⟩
  obtain ⟨leftId, one, leftRun, leftWalked, leftRoot, leftNumber⟩ :=
    first (depth + 1) state "," _ ready (by omega) shows (.comma Nat.one_pos)
  have here := leftWalked.shows shows rfl
  have between := leftWalked.trans (.next one)
  obtain ⟨rightId, two, rightRun, rightWalked, rightRoot, rightNumber⟩ :=
    second depth one.next next rest (between.ready ready) (by omega) here.next follower
  have further := between.trans rightWalked
  obtain ⟨id, after, run, entered, kind, number⟩ :=
    newNode_comma (further.ready ready) leftId rightNumber one.pos
  have kept := (Walked.next one).trans (rightWalked.trans entered)
  refine ⟨id, after, ?_, ?_,
    ⟨leftId, rightId, kind, kept.extends_.grows.represents leftRoot,
    entered.extends_.grows.represents rightRoot⟩, number⟩
  · refine (bind_run leftRun).trans ?_
    rw [position_run, accept_then here.sees]
    exact (bind_run rightRun).trans run
  · have length :
        (left ++ .symbol "," :: right).length = left.length + 1 + right.length := by
      simp; omega
    rw [length]
    exact further.trans entered

theorem Reads.assign {name : Identifier} (declared : name ∈ names)
    (reads : Reads locals lexemes 1 tree) :
    Reads locals (.name name :: .symbol "=" :: lexemes) 1
      (.assign name declared tree) := by
  intro depth state next rest ready long shows follower
  rw [List.length_cons, List.length_cons] at long
  obtain ⟨depth, rfl⟩ : ∃ less, depth = less + 1 := ⟨depth - 1, by omega⟩
  obtain ⟨target, one, symbol, targetRun, targetWalked, targetKind, is, typed⟩ :=
    parserAt_of_name (productions (depth + 1)) ready declared shows
      (by decide : 2 ≤ 8) (.assignment (by decide))
  have here := targetWalked.shows_tail shows
  have between := targetWalked.trans (.next one)
  obtain ⟨operand, two, operandRun, walked, root, number⟩ :=
    reads depth one.next next rest (between.ready ready) (by omega) here.next follower
  have further := between.trans walked
  have kept := (Walked.next one).trans walked
  obtain ⟨id, after, cast, run, entered, kind, converts, result⟩ :=
    newAssign_run (further.ready ready) (kept.extends_.hasTy typed) number one.pos
  have keptAll := kept.trans entered
  refine ⟨id, after, ?_, ?_, ⟨target, cast, symbol, operand, kind,
    keptAll.extends_.grows.kind? targetKind (by simp),
      keptAll.extends_.grows.isVariable is,
    converts, entered.extends_.grows.represents root⟩, result⟩
  · change Grammar.assign (productions (depth + 1)) state = _
    unfold Grammar.assign
    refine (bind_run targetRun).trans ?_
    rw [position_run, accept_then here.sees]
    exact (bind_run operandRun).trans run
  · have length : (Lexeme.name name :: .symbol "=" :: lexemes).length =
        1 + 1 + lexemes.length := by simp; omega
    rw [length]
    exact further.trans entered

/-! ## Operators that group to the left -/

/-- The loop of a level joins lexemes to a tree, whatever it goes on with.  Its rounds are
counted, so that they can be taken from the bound of the loop. -/
def Chains (locals : List SymbolId) (lexemes : List Lexeme) (level : Nat)
    (tree : Tree names) :
    Prop :=
  ∀ depth state next rest, Ready names locals state -> lexemes.length ≤ depth ->
    state.Shows (lexemes ++ .symbol next :: rest) -> Follower (level + 1) next ->
    ∃ first start rounds id after,
      parserAt (productions depth) (level + 1) state = .ok first start ∧
      start.tokens = state.tokens ∧ rounds ≤ lexemes.length ∧
      (∀ more,
        iterateFor (chainRound (joinsAt level) (parserAt (productions depth) (level + 1)))
          (rounds + more) first start =
        iterateFor (chainRound (joinsAt level) (parserAt (productions depth) (level + 1)))
          more id after) ∧
      Walked state lexemes.length after ∧ after.program.Represents locals tree id ∧
      after.program.IsNumber id

/-- A single operand is a chain without a round. -/
theorem Reads.chains {level : Nat} (reads : Reads locals lexemes (level + 1) tree) :
    Chains locals lexemes level tree := by
  intro depth state next rest ready long shows follower
  obtain ⟨id, after, run, walked, root⟩ :=
    reads depth state next rest ready long shows follower
  have same : after.tokens = state.tokens := by
    obtain ⟨nodes, rfl⟩ := walked
    rfl
  refine ⟨id, after, 0, id, after, run, same, Nat.zero_le _, fun more => ?_, walked, root⟩
  rw [Nat.zero_add]

/-- One more operator and operand are one more round. -/
theorem Chains.binary {left right : List Lexeme} {lhs rhs : Tree names} {op : BinaryOp}
    (first : Chains locals left op.level lhs)
    (second : Reads locals right (op.level + 1) rhs) :
    Chains locals (left ++ .symbol op.text :: right) op.level (.binary op lhs rhs) := by
  intro depth state next rest ready long shows follower
  rw [List.length_append, List.length_cons] at long
  rw [List.append_assoc, List.cons_append] at shows
  obtain ⟨operand, start, rounds, leftId, one, run, same, few, goesOn,
    leftWalked, leftRoot, leftNumber⟩ :=
    first depth state op.text _ ready (by omega) shows (.operator op (Nat.lt_succ_self _))
  have here := leftWalked.shows shows rfl
  have between := leftWalked.trans (.next one)
  obtain ⟨rightId, two, rightRun, rightWalked, rightRoot, rightNumber⟩ :=
    second depth one.next next rest (between.ready ready) (by omega) here.next follower
  have further := between.trans rightWalked
  have kept := (Walked.next one).trans rightWalked
  obtain ⟨id, after, joinRun, entered, kind, number⟩ :=
    joinOf_enters (further.ready ready) op (kept.extends_.isNumber leftNumber)
      rightNumber one.pos
  have keptAll := kept.trans entered
  have length : (left ++ Lexeme.symbol op.text :: right).length =
      left.length + 1 + right.length := by simp; omega
  refine ⟨operand, start, rounds + 1, id, after, run, same, by omega, fun more => ?_, ?_,
    ⟨leftId, rightId, kind, keptAll.extends_.grows.represents leftRoot,
      entered.extends_.grows.represents rightRoot⟩, number⟩
  · have last := chainRound_of_operator here rightRun joinRun
    rw [show rounds + 1 + more = rounds + (more + 1) by omega, goesOn,
      iterateFor_again last]
  · rw [length]
    exact further.trans entered

/-- A chain before a follower is all that the level reads. -/
theorem Chains.reads {level : Nat} (low : 2 ≤ level) (high : level ≤ 7)
    (chains : Chains locals lexemes level tree) : Reads locals lexemes level tree := by
  intro depth state next rest ready long shows follower
  obtain ⟨first, start, rounds, id, after, run, same, few, goesOn, walked, root⟩ :=
    chains depth state next rest ready long shows (follower.mono (Nat.le_succ level))
  refine ⟨id, after, ?_, walked, root⟩
  have bounded := shows.length_le
  rw [List.length_append] at bounded
  obtain ⟨more, enough⟩ : ∃ more, start.tokens.last + 2 = rounds + (more + 1) :=
    ⟨start.tokens.last + 1 - rounds, by rw [same]; omega⟩
  rw [parserAt_eq_leftChain _ low high, leftChain_run run, enough, goesOn]
  exact iterateFor_done (chainRound_of_follower (walked.shows shows rfl) follower) _

/-! ## Trees as they are printed -/

/-- A tree as it is printed is read by the production of every level, and is a chain of
every level of binary operators. -/
structure Settled (locals : List SymbolId) (tree : Tree names) : Prop where
  reads : ∀ least ≤ 8, Reads locals (tree.print least) least tree
  chains : ∀ level, 2 ≤ level -> level ≤ 7 -> Chains locals (tree.print level) level tree

/-- It suffices to read the tree without parentheses around it. -/
theorem Settled.of_bare (own : Reads locals tree.bare (min tree.level 8) tree)
    (chain : 2 ≤ tree.level -> tree.level ≤ 7 ->
      Chains locals tree.bare tree.level tree) :
    Settled locals tree := by
  have reads (least : Nat) (bounded : least ≤ 8) :
      Reads locals (tree.print least) least tree := by
    by_cases tight : least ≤ tree.level
    · rw [Tree.print_of_le tight]
      exact own.lower (by omega) (by omega)
    · rw [Tree.print_of_lt (by omega)]
      have whole := own.lower (Nat.zero_le _) (by omega)
      exact (whole.parenthesized (begins_bare tree)).lower bounded (Nat.le_refl 8)
  refine ⟨reads, fun level low high => ?_⟩
  by_cases same : tree.level = level
  · subst same
    rw [Tree.print_of_le (Nat.le_refl _)]
    exact chain low high
  · rw [← Tree.print_succ_of_ne same]
    exact (reads (level + 1) (by omega)).chains

theorem settled (locals : List SymbolId) (tree : Tree names) : Settled locals tree := by
  induction tree with
  | literal value inRange =>
      exact .of_bare (.literal locals value inRange)
        fun _ high => absurd high (by decide : ¬9 ≤ 7)
  | var name declared =>
      exact .of_bare (.var declared) fun _ high => absurd high (by decide : ¬9 ≤ 7)
  | unary op operand hypothesis =>
      exact .of_bare (.unary op (hypothesis.reads 8 (by decide)))
        fun _ high => absurd high (by decide : ¬8 ≤ 7)
  | binary op lhs rhs left right =>
      have low := op.two_le_level
      have high := op.level_le_seven
      have chain :
          Chains locals (Tree.binary op lhs rhs).bare op.level (.binary op lhs rhs) :=
        .binary (left.chains op.level low high) (right.reads (op.level + 1) (by omega))
      refine .of_bare ?_ fun _ _ => chain
      rw [Tree.level, Nat.min_eq_left (by omega)]
      exact chain.reads low high
  | assign name declared value hypothesis =>
      exact .of_bare (.assign declared (hypothesis.reads 1 (by decide)))
        fun low _ => absurd low (by decide : ¬2 ≤ 1)
  | comma lhs rhs left right =>
      exact .of_bare (.comma (left.reads 1 (by decide)) (right.reads 0 (by decide)))
        fun low _ => absurd low (by decide : ¬2 ≤ 0)

end Grammar
end MiniC
