import MiniC.Proofs.Precedence.Declarations
import MiniC.Proofs.Program.Frame

/-!
# A function around an expression

The tokens of a function without parameters that declares variables of type `int` and then
holds one expression statement.  Parsing them reads the declarations one by one, then the
expression, and last lays out a frame for the variables.  Only the frame can be too large.
-/

namespace MiniC
namespace Precedence

/-- The lexemes of the declaration of a variable. -/
def declaration (name : Identifier) : List Lexeme :=
  [.symbol "int", .name name, .symbol ";"]

/-- The lexemes of a function that declares variables and holds an expression
statement. -/
def definition {names : List Identifier} (function : Identifier) (tree : Tree names) :
    List Lexeme :=
  [.symbol "int", .name function, .symbol "(", .symbol ")", .symbol Grammar.openBrace] ++
    (names.flatMap declaration ++
      (tree.print 0 ++ [.symbol ";", .symbol Grammar.closeBrace]))

theorem length_flatMap_declaration (names : List Identifier) :
    (names.flatMap declaration).length = 3 * names.length := by
  induction names with
  | nil => rfl
  | cons name names hypothesis =>
      rw [List.flatMap_cons, List.length_append, hypothesis, List.length_cons]
      exact (Nat.add_comm _ _).trans (Nat.mul_succ 3 names.length).symm

/-- The references to so many locals of the first function of a program. -/
def localIds (count : Nat) : List SymbolId :=
  (List.range count).map fun index => ⟨index + 1⟩

/-- The symbol of a local variable that has no place yet. -/
def localSymbol (name : Identifier) : Symbol := ⟨name.text, .int, false, .localVar none⟩

end Precedence

namespace Grammar

open Precedence

variable {again : Productions} {names : List Identifier} {locals : List SymbolId}
  {state after : State} {body : List NodeId} {rest : List Lexeme}

/-! ## Items of a block -/

theorem blockRound_of_item {items : List NodeId} (body : List NodeId)
    (noBrace : state.sees closeBrace = false) (noEof : state.current.isEof = false)
    (item : blockItem again state = .ok items after) :
    blockRound again body state = .ok (.again (body ++ items)) after := by
  unfold blockRound
  rw [accept_else noBrace, get_run, if_neg (by simp [noEof]), bind_run item]
  rfl

theorem blockRound_of_brace (again : Productions) (body : List NodeId)
    (here : state.sees closeBrace = true) :
    blockRound again body state = .ok (.done body) state.next :=
  accept_then here

section Statement

variable {tree : Tree names} {depth : Nat} (ready : Ready names locals state)
  (long : (tree.print 0).length ≤ depth)
  (shows : state.Shows (tree.print 0 ++ .symbol ";" :: rest))

include ready long shows

/-- An expression statement whose expression is the root of a tree. -/
theorem exprStmt_run :
    ∃ id root after, exprStmt (productions depth) state = .ok id after ∧
      Walked state ((tree.print 0).length + 1) after ∧
      after.program.kind? id = some (.exprStmt root) ∧
      after.program.Represents locals tree root := by
  have begins :=
    (begins_enclose (begins_bare tree) 0 tree.level).append (Lexeme.symbol ";" :: rest)
  obtain ⟨root, middle, run, walked, represents, -⟩ :=
    (settled locals tree).reads 0 (Nat.zero_le 8) depth state ";" rest ready long
      shows .semicolon
  have closing := walked.shows shows rfl
  obtain ⟨id, after, entersNode, entered, kind⟩ :=
    newNode_statement (rfl : inferTy (.exprStmt root) state.pos middle.next =
      .ok .void middle.next)
  have further := (Walked.next middle).trans entered
  refine ⟨id, root, after, ?_, walked.trans further, kind,
    further.extends_.grows.represents represents⟩
  unfold exprStmt
  rw [position_run, accept_else (begins.sees_eq_false shows (by decide))]
  refine (bind_run run).trans ?_
  rw [bind_run (expect_run closing.sees)]
  exact entersNode

/-- An expression where an item of a block begins is an expression statement. -/
theorem blockItem_expression :
    ∃ id root after, blockItem (productions depth) state = .ok [id] after ∧
      Walked state ((tree.print 0).length + 1) after ∧
      after.program.kind? id = some (.exprStmt root) ∧
      after.program.Represents locals tree root := by
  have begins :=
    (begins_enclose (begins_bare tree) 0 tree.level).append (Lexeme.symbol ";" :: rest)
  have absent {symbol : String} (other : symbol ∉ ["(", "-", "!", "~"]) :
      state.sees symbol = false :=
    begins.sees_eq_false shows other
  have noLabel : state.startsLabel = false := by
    have whole : state.Shows ((tree.print 0 ++ [.symbol ";"]) ++ rest) := by
      rw [List.append_assoc]
      exact shows
    have front : state.Shows (tree.print 0 ++ [.symbol ";"]) := whole.append.1
    have noColon : state.seesAt (state.pos + 1) ":" = false := by
      refine front.seesAt_succ_eq_false ?_ ?_
      · have some := tree.bare_ne_nil
        rw [Tree.print_of_le (Nat.zero_le _), List.length_append]
        have positive := List.length_pos_iff.mpr some
        simp only [List.length_cons, List.length_nil]
        omega
      · rw [Tree.print_of_le (Nat.zero_le _)]
        refine List.forall_mem_append.mpr
          ⟨tree.forall_mem_bare ?_ (fun _ => rfl) (fun _ _ => rfl), ?_⟩
        · decide
        · decide
    rw [State.startsLabel, noColon, Bool.and_false]
  obtain ⟨id, root, after, run, statement⟩ := exprStmt_run ready long shows
  refine ⟨id, root, after, ?_, statement⟩
  have isStatement :
      stmt (productions depth) state = exprStmt (productions depth) state := by
    unfold stmt
    rw [position_run, accept_else (absent (by decide)), accept_else (absent (by decide)),
      accept_else (absent (by decide)), accept_else (absent (by decide)),
      accept_else (absent (by decide)), get_run, if_neg (by simp [noLabel]),
      accept_else (absent (by decide))]
  unfold blockItem
  rw [get_run, if_neg (by simp [begins.startsType_eq_false ready shows]),
    bind_run (isStatement.trans run)]
  rfl

end Statement

/-! ## Declarations -/

/-- The tables hold a function and some variables, which are its locals. -/
structure LocalsEntered (function : Symbol) (names : List Identifier)
    (state : State) : Prop where
  int : state.program.types.get? .int = some ⟨.int, 4, 4, none⟩
  long : state.program.types.get? .long = some ⟨.long, 8, 8, none⟩
  symbols : state.program.symbols = (function :: names.map localSymbol).toArray
  globals : state.program.globals = #[⟨0⟩]
  context : state.function = some ⟨.int, localIds names.length, [], []⟩

/-- The parser stands in the body of a function, behind the declarations of some
variables. -/
structure Declaring (function : Symbol) (names : List Identifier) (body : List NodeId)
    (state : State) : Prop extends LocalsEntered function names state where
  declared : ∀ name ∈ names, ∃ symbol,
    state.scopes.lookupVariable? name.text = some (.object symbol) ∧
      state.program.IsVariable (localIds names.length) name symbol
  clean : state.NoTypedef
  length : body.length = names.length
  blocks : ∀ id ∈ body, state.program.kind? id = some (.block [])

namespace Declaring

variable {function : Symbol} {name : Identifier}

theorem ready (declaring : Declaring function names body state) :
    Ready names (localIds names.length) state :=
  ⟨declaring.int, declaring.long, declaring.declared, declaring.clean⟩

/-- One more declaration. -/
theorem step (declaring : Declaring function names body state) {node : Node}
    (kind : node.kind = .block []) (pos : Nat) :
    Declaring function (names ++ [name]) (body ++ [⟨state.program.nodes.size⟩])
      (state.declared name.text pos node) := by
  have size : state.program.symbols.size = names.length + 1 := by
    rw [declaring.symbols]
    simp
  have ids : localIds (names ++ [name]).length =
      localIds names.length ++ [⟨state.program.symbols.size⟩] := by
    simp [localIds, List.range_succ, size]
  have lookup (other : String) :
      (state.declared name.text pos node).scopes.lookupVariable? other =
        if other = name.text then some (.object ⟨state.program.symbols.size⟩)
        else state.scopes.lookupVariable? other :=
    Scopes.lookupVariable?_declareVariable _ _ _ _
  refine
    { int := declaring.int
      long := declaring.long
      symbols := ?_
      globals := declaring.globals
      context := ?_
      declared := ?_
      clean := ?_
      length := ?_
      blocks := ?_ }
  · change state.program.symbols.push _ = _
    rw [declaring.symbols]
    simp [localSymbol]
  · change state.function.map _ = _
    rw [declaring.context, ids]
    rfl
  · intro other member
    rw [lookup, ids]
    have found : (state.declared name.text pos node).program.symbol?
        ⟨state.program.symbols.size⟩ = some (localSymbol name) := Array.getElem?_push_size
    split
    · rename_i same
      exact ⟨_, rfl, List.mem_append_right _ (List.mem_singleton.mpr rfl), _,
        found, same.symm, rfl⟩
    · rename_i different
      have earlier : other ∈ names := by
        rcases List.mem_append.mp member with earlier | last
        · exact earlier
        · exact absurd (congrArg Identifier.text (List.mem_singleton.mp last)) different
      obtain ⟨symbol, bound, inside, entry, there, named, typed⟩ :=
        declaring.declared other earlier
      have kept := (Program.extends_pushSymbol state.program (localSymbol name)
        state.program.globals).symbols symbol entry there
      exact ⟨symbol, bound, List.mem_append_left _ inside, entry, kept, named, typed⟩
  · intro other ty
    rw [lookup]
    split
    · simp
    · exact declaring.clean other ty
  · simp [declaring.length]
  · have extended := Program.extends_pushNode state.program node
    intro id member
    rcases List.mem_append.mp member with earlier | last
    · exact extended.kind? (declaring.blocks id earlier)
    · obtain rfl := List.mem_singleton.mp last
      have found : (state.declared name.text pos node).program.node?
          ⟨state.program.nodes.size⟩ = some node := Array.getElem?_push_size
      exact (Program.kind?_of_some found).trans (congrArg some kind)

/-- Reading on keeps what has been declared. -/
theorem walked {count : Nat} (declaring : Declaring function names body state)
    (walked : Walked state count after) : Declaring function names body after := by
  have kept : ∀ id ∈ body, after.program.kind? id = some (.block []) :=
    fun id member => walked.extends_.kind? (declaring.blocks id member)
  obtain ⟨nodes, rfl⟩ := walked
  exact
    { int := declaring.int
      long := declaring.long
      symbols := declaring.symbols
      globals := declaring.globals
      context := declaring.context
      declared := declaring.declared
      clean := declaring.clean
      length := declaring.length
      blocks := kept }

/-- The loop of a block reads declarations one by one. -/
theorem run (declaring : Declaring function names body state) (again : Productions)
    {more : List Identifier}
    (shows : state.Shows (more.flatMap Precedence.declaration ++ rest)) :
    ∃ blocks after, Declaring function (names ++ more) blocks after ∧
      after.tokens = state.tokens ∧
      after.pos = state.pos + (more.flatMap Precedence.declaration).length ∧
      after.Shows rest ∧
      ∀ bound, iterateFor (blockRound again) (more.length + bound) body state =
        iterateFor (blockRound again) bound blocks after := by
  induction more generalizing names body state with
  | nil =>
      refine ⟨body, state, ?_, rfl, rfl, shows, fun bound => ?_⟩
      · rw [List.append_nil]
        exact declaring
      · rw [List.length_nil, Nat.zero_add]
  | cons name more hypothesis =>
      have here : state.Shows (.symbol "int" :: .name name :: .symbol ";" ::
          (more.flatMap Precedence.declaration ++ rest)) := shows
      obtain ⟨node, kind, item⟩ :=
        blockItem_declaration again declaring.clean declaring.int here
      have round := blockRound_of_item body (here.sees_eq_false (by decide))
        (here.isEof_eq_false (List.cons_ne_nil _ _)) item
      obtain ⟨blocks, after, last, same, reached, further, goesOn⟩ :=
        hypothesis (declaring.step kind _) here.next.next.next
      refine ⟨blocks, after, ?_, same, ?_, further, fun bound => ?_⟩
      · rw [List.append_cons]
        exact last
      · rw [reached, List.flatMap_cons, List.length_append]
        exact Nat.add_assoc state.pos 3 _
      · rw [List.length_cons, Nat.add_right_comm, iterateFor_again round]
        exact goesOn bound

/-- The items of a body: the declarations, the expression statement and the closing
brace. -/
theorem items_run (declaring : Declaring function [] [] state)
    {tree : Tree names} {depth : Nat} (long : (tree.print 0).length ≤ depth)
    (shows : state.Shows (names.flatMap Precedence.declaration ++
      (tree.print 0 ++ [.symbol ";", .symbol closeBrace]))) :
    ∃ body statement root after,
      iterate [] (blockRound (productions depth)) state =
        .ok (body ++ [statement]) after ∧
      Declaring function names body after ∧ after.tokens = state.tokens ∧
      after.pos = state.pos + (names.flatMap Precedence.declaration).length +
        (tree.print 0).length + 2 ∧
      after.program.kind? statement = some (.exprStmt root) ∧
      after.program.Represents (localIds names.length) tree root := by
  obtain ⟨body, middle, inside, same, reached, further, goesOn⟩ :=
    declaring.run (productions depth) shows
  obtain ⟨statement, root, after, item, walked, kind, represents⟩ :=
    blockItem_expression inside.ready long further
  have begins := (begins_enclose (begins_bare tree) 0 tree.level).append
    [Lexeme.symbol ";", Lexeme.symbol closeBrace]
  have round := blockRound_of_item body (begins.sees_eq_false further (by decide))
    (further.isEof_eq_false (by simp)) item
  have split :
      middle.Shows ((tree.print 0 ++ [.symbol ";"]) ++ [.symbol closeBrace]) := by
    rw [List.append_assoc]
    exact further
  have closing := walked.shows split (by simp)
  have last := blockRound_of_brace (productions depth) (body ++ [statement]) closing.sees
  have ended := Walked.next after
  have bounded := shows.length_le
  rw [List.length_append, length_flatMap_declaration] at bounded
  obtain ⟨more, enough⟩ : ∃ more, state.tokens.last + 2 = names.length + (more + 1 + 1) :=
    ⟨state.tokens.last - names.length, by omega⟩
  refine ⟨body, statement, root, after.next, ?_,
    (inside.walked walked).walked ended, ?_, ?_, ended.extends_.kind? kind, represents⟩
  · rw [iterate_run, enough, goesOn, iterateFor_again round, iterateFor_done last]
  · obtain ⟨nodes, rfl⟩ := walked
    exact same
  · obtain ⟨nodes, rfl⟩ := walked
    change middle.pos + _ + 1 = _
    rw [reached]
    omega

/-- The body of the function is entered as a block. -/
theorem block_run {tree : Tree names} {depth : Nat}
    (declaring : Declaring function [] [] { state with scopes := state.scopes.enter })
    (long : (tree.print 0).length ≤ depth)
    (shows : state.Shows (names.flatMap Precedence.declaration ++
      (tree.print 0 ++ [.symbol ";", .symbol closeBrace]))) :
    ∃ id after, block (productions depth) state = .ok id after ∧
      LocalsEntered function names after ∧ after.tokens = state.tokens ∧
      after.pos = state.pos + (names.flatMap Precedence.declaration).length +
        (tree.print 0).length + 2 ∧
      after.program.IsBody (localIds names.length) tree id := by
  obtain ⟨body, statement, root, middle, run, last, same, reached, kind, represents⟩ :=
    declaring.items_run long shows
  obtain ⟨id, after, entersNode, entered, block⟩ := newNode_statement
    (rfl : inferTy (.block (body ++ [statement])) (state.pos - 1) middle =
      .ok .void middle)
  have extended := entered.extends_
  have there := last.walked entered
  refine ⟨id, { after with scopes := after.scopes.leave }, ?_,
    ⟨there.int, there.long, there.symbols, there.globals, there.context⟩, ?_, ?_,
    body, statement, root, block, there.length, there.blocks, extended.kind? kind,
    extended.grows.represents represents⟩
  · unfold Grammar.block
    rw [position_run]
    exact withScope_run ((bind_run run).trans entersNode)
  · obtain ⟨nodes, rfl⟩ := entered
    exact same
  · obtain ⟨nodes, rfl⟩ := entered
    exact reached

end Declaring

/-! ## The definition -/

/-- A function without parameters from its body on: what is left is to lay out its
frame. -/
theorem functionDefinition_run {tree : Tree names} {depth : Nat} {function : Symbol}
    (int : state.program.types.get? .int = some ⟨.int, 4, 4, none⟩)
    (longTy : state.program.types.get? .long = some ⟨.long, 8, 8, none⟩)
    (symbols : state.program.symbols = #[function])
    (globals : state.program.globals = #[⟨0⟩])
    (clean : state.NoTypedef) (long : (tree.print 0).length ≤ depth)
    (shows : state.Shows (.symbol openBrace :: (names.flatMap Precedence.declaration ++
      (tree.print 0 ++ [.symbol ";", .symbol closeBrace]))))
    (id : SymbolId) (tok : Nat) :
    ∃ body middle, LocalsEntered function names middle ∧
      middle.program.IsBody (localIds names.length) tree body ∧
      middle.tokens = state.tokens ∧
      middle.pos = state.pos + 1 + (names.flatMap Precedence.declaration).length +
        (tree.print 0).length + 2 ∧
      functionDefinition (productions depth) id .int [] tok state =
        layoutFrame id tok
          { middle with
            function := none
            program := middle.program.setSymbolKind id
              (.function ⟨[], localIds names.length, some body, 0⟩) } := by
  let opened : State :=
    { state with
      pos := state.pos + 1
      scopes := state.scopes.enter
      function := some ⟨.int, [], [], []⟩ }
  have inside : opened.Shows (names.flatMap Precedence.declaration ++
      (tree.print 0 ++ [.symbol ";", .symbol closeBrace])) := shows.next
  have declaring : Declaring function [] []
      { opened with scopes := opened.scopes.enter } :=
    { int := int
      long := longTy
      symbols := symbols
      globals := globals
      context := rfl
      declared := by simp
      clean := clean
      length := rfl
      blocks := by simp }
  obtain ⟨body, after, run, entered, same, reached, isBody⟩ :=
    declaring.block_run long inside
  have here : { state with
      scopes := state.scopes.enter
      function := some ⟨.int, [], [], []⟩ : State }.sees openBrace = true := shows.sees
  let left : State := { after with scopes := after.scopes.leave }
  have bodyRun : functionBody (productions depth) []
      { state with function := some ⟨.int, [], [], []⟩ } = .ok ([], body) left := by
    refine withScope_run ?_
    change (expect openBrace >>= _) _ = _
    rw [bind_run (expect_run here)]
    exact bind_run run
  refine ⟨body, left, ⟨entered.int, entered.long, entered.symbols, entered.globals,
    entered.context⟩, isBody, same, reached, ?_⟩
  have finished : finishFunction left =
      .ok ⟨.int, localIds names.length, [], []⟩ { left with function := none } :=
    finishFunction_run entered.context
  change (functionBody (productions depth) [] >>= _)
    { state with function := some ⟨.int, [], [], []⟩ } = _
  rw [bind_run bodyRun]
  change (finishFunction >>= _) left = _
  rw [bind_run finished]
  rfl

end Grammar
end MiniC
