import Mathlib.Data.List.Nodup
import MiniC.Proofs.Grammar.Runs
import MiniC.Proofs.Grammar.Statements
import MiniC.Proofs.Program.Frame

/-!
# Every source text is parsed or rejected

The recursion of the productions is as deep as there are tokens, and each function
definition ends with a frame for its locals.  From tokens that the lexer has cut, `parse`
gives a program that keeps the rules of `MiniC.Proofs.Program.Rules`, or rejects the
source text at one of the tokens.
-/

namespace MiniC
namespace Grammar

variable {tokens : TokenStream} {base budget : Nat} {state : State} {again : Productions}

/-- Productions that recur to a depth can be used while fewer tokens are left. -/
theorem productions_sound (sound : tokens.Sound) (depth : Nat) :
    (productions depth).Sound tokens depth := by
  induction depth with
  | zero =>
      constructor <;> intro base state inv close <;> exact absurd close
        (Nat.not_lt_zero _)
  | succ depth hypothesis =>
      exact
        { specifiers := fun inv close allowed =>
            specifiers_meets sound hypothesis inv (Nat.le_of_lt_succ close) allowed
          declarator := fun inv close _ has =>
            declarator_meets hypothesis sound inv (Nat.le_of_lt_succ close) has
          suffix := fun inv close _ has =>
            suffix_meets hypothesis sound inv (Nat.le_of_lt_succ close) has
          expr := fun inv close inside =>
            expr_meets hypothesis sound inv (Nat.le_of_lt_succ close) inside
          assign := fun inv close inside =>
            assign_meets hypothesis sound inv (Nat.le_of_lt_succ close) inside
          cast := fun inv close inside =>
            cast_meets hypothesis sound inv (Nat.le_of_lt_succ close) inside
          unary := fun inv close inside =>
            unary_meets hypothesis sound inv (Nat.le_of_lt_succ close) inside
          stmt := fun inv close inside =>
            stmt_meets hypothesis sound inv (Nat.le_of_lt_succ close) inside
          block := fun inv close inside =>
            block_meets hypothesis sound inv (Nat.le_of_lt_succ close) inside }

/-- The program of a state that keeps the invariant. -/
theorem Inv.sound (inv : Inv tokens base state) : state.program.Sound tokens where
  types := inv.types
  nodes := inv.nodes
  symbols := fun id symbol found => (inv.symbols id symbol found).typed
  globals := inv.globals
  listing := ⟨state.literals, inv.listing⟩
  functions := fun id symbol function found kind =>
    (inv.symbols id symbol found).callable function kind
  definitions := fun id symbol function body found kind defined =>
    ⟨base, inv.finished id symbol function body found kind defined⟩
  labels := inv.labelled

/-! ## States between functions -/

/-- A state at file scope, outside of any function. -/
structure AtFile (tokens : TokenStream) (base : Nat) (state : State) : Prop where
  inv : Inv tokens base state
  function : state.function = none
  file : state.scopes.blocks = []

/-- Productions that are not functions stay at file scope. -/
theorem AtFile.run {after : State} (file : AtFile tokens base state)
    (ran : Ran tokens base state after) : AtFile tokens base after where
  inv := ran.inv
  function := by
    have result := ran.result
    rw [file.function] at result
    simpa using result
  file := by
    have depth := ran.outer.depth
    rw [file.file] at depth
    exact List.eq_nil_of_length_eq_zero depth

/-- A function begins where the nodes end. -/
theorem AtFile.begin (file : AtFile tokens base state) {result : TyId}
    (has : state.program.types.Has result) :
    Inv tokens state.program.nodes.size
      { state with function := some ⟨result, [], [], []⟩ } := by
  have inv := file.inv
  have none : state.locals = [] := by simp [State.locals, file.function]
  exact
    { same := inv.same
      cursor := inv.cursor
      base_le := Nat.le_refl _
      types := inv.types
      nodes := inv.nodes
      symbols := inv.symbols
      globals := inv.globals
      listing := inv.listing
      scopes := by
        have scopes := inv.scopes
        rw [none] at scopes
        exact scopes
      locals_nodup := List.nodup_nil
      locals := by simp [State.locals]
      result := by
        intro context equal
        cases equal
        exact has
      home := by
        intro context _ id node beyond found
        have bound := (Array.getElem?_eq_some_iff.mp found).1
        exact absurd bound (Nat.not_lt_of_le beyond)
      labels_nodup := by
        intro context equal
        cases equal
        exact List.nodup_nil
      finished := fun id symbol function body found kind defined =>
        (inv.finished id symbol function body found kind defined).mono inv.base_le
      labelled := inv.labelled }

/-- A function that has been given its body and its frame is finished. -/
theorem Inv.define
    (inv : Inv tokens base state)
    {context : FunctionContext}
    (inside : state.function = some context)
    (file : state.scopes.blocks = [])
    {new : Program}
    {id : SymbolId}
    {symbol : Symbol}
    {function : Function}
    (defined : Program.Defined state.program new id symbol function)
    {prototype : Function}
    (declaredAs : symbol.kind = .function prototype)
    (locals : function.locals = context.locals)
    {declared : Ty}
    {params : List Param}
    (typed : state.program.types.get? symbol.ty = some declared)
    (kind : declared.kind = .func context.result params)
    (few : function.params.length ≤ 6)
    (first : function.params <+: context.locals)
    (fit : ∀ param ∈ function.params, state.program.FitsRegister param)
    {body : NodeId}
    (bodied : function.body = some body)
    (part : Part base state body)
    (labels : state.program.LabelRule tokens body) :
    AtFile tokens new.nodes.size { state with function := none, program := new } := by
  have keeps := defined.keeps base
  have own : state.locals = context.locals := by simp [State.locals, inside]
  have size : new.nodes.size = state.program.nodes.size := by rw [defined.nodes]
  have body_lt : body.index < state.program.nodes.size := by
    obtain ⟨node, found, _⟩ := part.is
    exact (Array.getElem?_eq_some_iff.mp found).1
  have stays (other : NodeId) (inside : other.index < state.program.nodes.size)
      (rule : state.program.LabelRule tokens other) : new.LabelRule tokens other :=
    (defined.keeps _).labelRule (Nat.le_refl _) inv.earlier inside rule
  have rule : new.DefinitionRule new.nodes.size
      { symbol with kind := .function function } function body :=
    { statement := keeps.isStatement part.is
      body_lt := by
        rw [size]
        exact body_lt
      home := by
        refine ⟨base, context.result, params, declared, part.near, ?_, kind, ?_⟩
        · rw [defined.types]
          exact typed
        · intro other node after _ found
          rw [defined.node?_eq] at found
          rw [locals]
          exact keeps.homeRule (inv.home context inside other node after found)
            (fun _ member => member)
      params_few := few
      params_first := by rw [locals]; exact first
      params_fit := fun param member => keeps.fitsRegister (fit param member)
      locals_nodup := by rw [locals, ← own]; exact inv.locals_nodup
      frame := defined.frame }
  -- What is a function now was one before, as a prototype or with its body.
  have wasFunction {other : SymbolId} {now was : Symbol} {its : Function}
      (found : new.symbol? other = some now) (itsKind : now.kind = .function its)
      (there : state.program.symbol? other = some was) :
      ∃ earlier, was.kind = .function earlier := by
    obtain ⟨reached, again, _, cases⟩ := defined.symbol_cases there
    obtain rfl : now = reached := by simpa [found] using again
    rcases cases with rfl | isLocal | rfl
    · obtain rfl : symbol = was := by simpa [defined.was] using there
      exact ⟨prototype, declaredAs⟩
    · simp [Symbol.isLocal, itsKind] at isLocal
    · exact ⟨its, itsKind⟩
  refine ⟨?_, rfl, file⟩
  exact
    { same := inv.same
      cursor := inv.cursor
      base_le := Nat.le_refl _
      types := by
        change new.types.Sound
        rw [defined.types]
        exact inv.types
      nodes := by
        intro other node found
        rw [defined.node?_eq] at found
        exact keeps.nodeRule (inv.nodes other node found)
      symbols := by
        intro other now found
        obtain ⟨was, there⟩ := defined.was_there found
        obtain ⟨reached, again, refines, _⟩ := defined.symbol_cases there
        obtain rfl : now = reached := by simpa [found] using again
        have rule := (inv.symbols other was there).grow keeps.toGrows
        refine ⟨by rw [refines.ty]; exact rule.typed,
          by rw [refines.ty, refines.isLocal]; exact rule.sized, ?_⟩
        intro its itsKind
        obtain ⟨earlier, wasKind⟩ := wasFunction found itsKind there
        rw [refines.name, refines.ty]
        exact rule.callable earlier wasKind
      globals := by
        intro other member
        rw [defined.globals] at member
        exact keeps.hasSymbol (inv.globals other member)
      listing := by
        refine inv.listing.keep inv.globals keeps.toGrows defined.globals ?_
        intro other now its found itsKind
        obtain ⟨was, there⟩ := defined.was_there found
        obtain ⟨earlier, wasKind⟩ := wasFunction found itsKind there
        exact ⟨was, earlier, there, wasKind⟩
      scopes :=
        ⟨inv.scopes.file.grow keeps.toGrows (fun _ member => member), by simp [file]⟩
      locals_nodup := List.nodup_nil
      locals := by simp [State.locals]
      result := by simp
      home := by simp
      labels_nodup := by simp
      finished := by
        intro other now its itsBody found itsKind itsBodied
        obtain ⟨was, there⟩ := defined.was_there found
        obtain ⟨reached, again, _, cases⟩ := defined.symbol_cases there
        obtain rfl : now = reached := by simpa [found] using again
        rcases cases with rfl | isLocal | rfl
        · have equal : now = { symbol with kind := .function function } := by
            simpa [defined.own] using found.symm
          subst equal
          obtain rfl : function = its := by simpa using itsKind
          obtain rfl : body = itsBody := by simpa [bodied] using itsBodied
          exact rule
        · simp [Symbol.isLocal, itsKind] at isLocal
        · have before := inv.finished other now its itsBody there itsKind itsBodied
          have after := keeps.definitionRule inv.base_le before
          exact after.mono (by rw [size]; exact inv.base_le)
      labelled := by
        intro other now its itsBody found itsKind itsBodied
        obtain ⟨was, there⟩ := defined.was_there found
        obtain ⟨reached, again, _, cases⟩ := defined.symbol_cases there
        obtain rfl : now = reached := by simpa [found] using again
        rcases cases with rfl | isLocal | rfl
        · have equal : now = { symbol with kind := .function function } := by
            simpa [defined.own] using found.symm
          subst equal
          obtain rfl : function = its := by simpa using itsKind
          obtain rfl : body = itsBody := by simpa [bodied] using itsBodied
          exact stays body body_lt labels
        · simp [Symbol.isLocal, itsKind] at isLocal
        · have before := inv.finished other now its itsBody there itsKind itsBodied
          exact stays itsBody (Nat.lt_of_lt_of_le before.body_lt inv.base_le)
            (inv.labelled other now its itsBody there itsKind itsBodied) }

/-! ## Function definitions -/

theorem signature_meets (inv : Inv tokens base state) {ty : TyId} {entry : Ty}
    (found : state.program.types.get? ty = some entry) (tok : Nat) :
    Meets tokens (signature ty tok) state fun result after =>
      after = state ∧ entry.kind = .func result.1 result.2 ∧ result.2.length ≤ 6 ∧
        state.program.Callable ty := by
  refine lookupTy_meets found ?_
  split
  · rename_i result params kind
    have has : state.program.types.Has result :=
      inv.types.refs ty entry found result (by simp [kind, TyKind.refs])
    obtain ⟨resultEntry, resultFound⟩ := TypeTable.has_iff.mp has
    refine lookupTy_meets resultFound ?_
    refine .rejectIf (.failAt inv.same) fun scalar => ?_
    refine .rejectIf (.failAt inv.same) fun many => ?_
    have few : params.length ≤ 6 := by
      unfold maxArguments at many
      omega
    exact .pure ⟨rfl, kind, few, entry, result, params, resultEntry, found,
      kind, resultFound, by simpa using scalar, few⟩
  · exact .failAt inv.same

theorem declareParameter_meets (inv : Inv tokens base state) (inside : InFunction state)
    {param : Param} (noArray : state.program.types.NoArray param.ty) :
    Meets tokens (declareParameter param) state fun id after =>
      Ran tokens base state after ∧ after.locals = state.locals ++ [id] ∧
        after.program.FitsRegister id := by
  unfold declareParameter
  split
  · exact .failHere inv.same
  · obtain ⟨entry, found, noArray⟩ := noArray
    refine lookupTy_meets found ?_
    refine .rejectIf (.failAt inv.same) fun scalar => ?_
    have sized : 0 ≤ entry.size := by
      apply Int.not_lt.mp
      intro negative
      obtain ⟨form, kind⟩ := inv.types.sized param.ty entry found negative
      simp [Ty.isAggregate, kind] at scalar
    refine .get ((newLocal_meets inv inside _ found sized).weaken ?_)
    rintro id after ⟨ran, locals, _, declared⟩
    exact ⟨ran, locals, _, entry, declared, ran.extended.types _ entry found,
      by simpa using scalar, noArray⟩

/-- The parameters of a function are the first of its locals. -/
structure BodyRead (tokens : TokenStream) (base : Nat) (state : State)
    (params : List Param) (read : List SymbolId × NodeId) (after : State) : Prop where
  ran : Moved tokens base state after
  forward : state.pos < after.pos
  length : read.1.length = params.length
  first : read.1 <+: after.locals
  fit : ∀ id ∈ read.1, after.program.FitsRegister id
  part : Part base after read.2
  accounts : Accounts tokens state after [read.2]

theorem functionBody_meets (allSound : again.Sound tokens budget) (sound : tokens.Sound)
    (enough : tokens.last ≤ budget) (inv : Inv tokens base state)
    (function : state.function.isSome = true) (fresh : state.locals = [])
    {params : List Param}
    (noArrays : ∀ param ∈ params, state.program.types.NoArray param.ty) :
    Meets tokens (functionBody again params) state
      (BodyRead tokens base state params) := by
  have entered := inv.enter
  have inside : InFunction { state with scopes := state.scopes.enter } :=
    ⟨function, by simp [Scopes.enter]⟩
  refine .withScope ?_
  refine .bind (.mapM (fun done results current =>
    Ran tokens base { state with scopes := state.scopes.enter } current ∧
      current.locals = results ∧ results.length = done.length ∧
        ∀ id ∈ results, current.program.FitsRegister id)
          ⟨.refl entered, fresh, rfl, by simp⟩ ?_) ?_
  · rintro done results param current member ⟨ran, locals, length, fit⟩
    refine (declareParameter_meets ran.inv (ran.inFunction inside)
      (ran.extended.noArray (noArrays param member))).weaken ?_
    rintro id after ⟨further, more, fits⟩
    refine ⟨ran.trans further, by rw [more, locals], by simp [length], ?_⟩
    intro other listed
    rcases List.mem_append.mp listed with earlier | last
    · exact further.extended.grows.fitsRegister (fit other earlier)
    · obtain rfl := List.mem_singleton.mp last
      exact fits
  · rintro symbols current ⟨ran, locals, length, fit⟩
    refine .expect sound ran.inv.same fun _ before => ?_
    have opened := ran.trans (Ran.next ran.inv before)
    have near : tokens.last - current.next.pos ≤ budget := by omega
    refine .bind (block_meets allSound sound opened.inv near (opened.inFunction inside))
      ?_
    intro body after read
    have whole := opened.toMoved.trans read.ran
    have inner :
        Accounts tokens { state with scopes := state.scopes.enter } after [body] :=
      read.accounts.behind opened
    refine .pure ⟨whole.leave, ?_, length, ?_, ?_, ⟨read.part.near, read.part.is⟩, inner⟩
    · have forward := ran.forward
      have further := read.forward
      change state.pos < after.pos
      change state.pos ≤ current.pos at forward
      rw [State.next_pos] at further
      omega
    · have prefixed := read.ran.locals
      change current.locals <+: after.locals at prefixed
      rw [locals] at prefixed
      exact prefixed
    · intro id member
      exact read.ran.extended.grows.fitsRegister (fit id member)

/-- Every jump that was noted has its label. -/
theorem checkGotos_meets (same : state.tokens = tokens) (function : FunctionContext) :
    Meets tokens (checkGotos function) state fun _ after =>
      after = state ∧ ∀ jump ∈ function.gotos, jump.1 ∈ function.labels := by
  refine .forM ?_
  rintro ⟨label, tok⟩
  dsimp only
  split
  · rename_i defined
    exact .pure ⟨rfl, by simpa using defined⟩
  · exact .failAt same

/-- The labels of a body that accounts for all that was noted. -/
theorem Accounts.labelRule
    {before after : State}
    {body : NodeId}
    (accounts : Accounts tokens before after [body])
    (fresh : before.signs = [])
    {context : FunctionContext}
    (noted : after.signs = context.signs)
    (nodup : context.labels.Nodup)
    (targets : ∀ jump ∈ context.gotos, jump.1 ∈ context.labels) :
    after.program.LabelRule tokens body := by
  obtain ⟨signs, bears, covers⟩ := accounts
  rw [fresh, List.append_nil, noted] at covers
  refine ⟨signs, bears, fun name => ?_, fun unsized name jumps => ?_⟩
  · have labels : (context.labels.map Sign.label).Nodup :=
      List.Nodup.map (fun _ _ equal => Sign.label.inj equal) nodup
    have absent : .label name ∉ context.gotos.map fun jump => Sign.goto jump.1 := by simp
    calc signs.count (.label name)
      _ ≤ context.signs.count (.label name) := covers.1.count_le _
      _ = (context.labels.map Sign.label).count (.label name) := by
          rw [FunctionContext.signs, List.count_append,
            List.count_eq_zero_of_not_mem absent, Nat.add_zero]
      _ ≤ 1 := List.nodup_iff_count_le_one.mp labels _
  · have member := (covers.2 unsized).mem_iff.mp jumps
    simp only [FunctionContext.signs, List.mem_append, List.mem_map,
      reduceCtorEq, and_false, exists_false, false_or] at member
    obtain ⟨jump, noted, equal⟩ := member
    obtain rfl := Sign.goto.inj equal
    refine (covers.2 unsized).mem_iff.mpr (List.mem_append_left _ ?_)
    exact List.mem_map_of_mem (targets jump noted)

/-- A function definition from its parameters on, but for the layout of its frame. -/
def definitionUpToFrame (again : Productions) (id : SymbolId) (result : TyId)
    (params : List Param) : Parser Unit := do
  modify fun state => { state with function := some ⟨result, [], [], []⟩ }
  let (symbols, body) ← functionBody again params
  let function ← finishFunction
  checkGotos function
  modify fun state =>
    { state with
      program :=
        state.program.setSymbolKind id
          (.function ⟨symbols, function.locals, some body, 0⟩) }

theorem functionDefinition_eq (again : Productions) (id : SymbolId) (result : TyId)
    (params : List Param) (tok : Nat) :
    functionDefinition again id result params tok = (do
      definitionUpToFrame again id result params
      layoutFrame id tok) := by
  simp only [functionDefinition, definitionUpToFrame, bind_assoc]

/-- A function has its body and waits for its frame.  Laying out the frame ends the
definition, or the frame exceeds the range of a displacement. -/
structure FrameDue (tokens : TokenStream) (id : SymbolId) (function : Function)
    (state : State) : Prop where
  same : state.tokens = tokens
  own : ∃ symbol, state.program.symbol? id = some symbol ∧
    symbol.kind = .function function
  laid : Program.OverflowsOr (Program.layoutFrame id) state.program
    (Extent.maxInt32 < state.program.frameExtent function.locals) fun _ new =>
      (∃ last, AtFile tokens last { state with program := new }) ∧
      state.program.frameExtent function.locals ≤ Extent.maxInt32 ∧
      ∃ symbol, new.symbol? id = some symbol ∧ symbol.kind = .function
        { function with stackSize := state.program.frameExtent function.locals }

/-- A frame that cannot be laid out is rejected at a token. -/
theorem layoutFrame_cases {id : SymbolId} {excess : Prop} {post : Unit -> Program -> Prop}
    (laid : Program.OverflowsOr (Program.layoutFrame id) state.program excess post)
    (tok : Nat) :
    (excess ∧ layoutFrame id tok state =
      .error (.rejected (.typing .frameTooLarge) (state.token tok).loc) state) ∨
    ∃ new, layoutFrame id tok state = .ok () { state with program := new } ∧
    post () new := by
  unfold Program.OverflowsOr at laid
  unfold layoutFrame
  rw [get_run]
  split at laid
  · rename_i new reached
    rw [reached]
    exact .inr ⟨new, rfl, laid⟩
  · rename_i error new reached
    obtain ⟨rfl, beyond⟩ := laid
    rw [reached]
    exact .inl ⟨beyond, rfl⟩

/-- A frame is rejected at the name of its function if its size exceeds the range of a
displacement.  Otherwise the function gets it. -/
theorem FrameDue.layoutFrame_run {id : SymbolId} {function : Function}
    (due : FrameDue tokens id function state) (tok : Nat) :
    (Extent.maxInt32 < state.program.frameExtent function.locals ∧
      ∃ after, layoutFrame id tok state =
        .error (.rejected (.typing .frameTooLarge) (tokens.get tok).loc) after) ∨
    state.program.frameExtent function.locals ≤ Extent.maxInt32 ∧
      ∃ after, layoutFrame id tok state = .ok () after ∧ after.pos = state.pos ∧
        (∃ last, AtFile tokens last after) ∧
        ∃ symbol, after.program.symbol? id = some symbol ∧ symbol.kind = .function
          { function with stackSize := state.program.frameExtent function.locals } := by
  rcases layoutFrame_cases due.laid tok with ⟨beyond, rejected⟩ | ⟨new, reached, laid⟩
  · refine .inl ⟨beyond, state, ?_⟩
    rw [← due.same]
    exact rejected
  · obtain ⟨file, small, own⟩ := laid
    exact .inr ⟨small, { state with program := new }, reached, rfl, file, own⟩

/-- A function definition from its parameters on has a body, which waits for its frame. -/
theorem definitionUpToFrame_meets (allSound : again.Sound tokens budget)
    (sound : tokens.Sound) (enough : tokens.last ≤ budget)
    (file : AtFile tokens base state)
    {id : SymbolId} {symbol : Symbol} {declared : Ty} {result : TyId}
    {params : List Param}
    (found : state.program.symbol? id = some symbol) {prototype : Function}
    (declaredAs : symbol.kind = .function prototype)
    (typed : state.program.types.get? symbol.ty = some declared)
    (kind : declared.kind = .func result params) (few : params.length ≤ 6) :
    Meets tokens (definitionUpToFrame again id result params) state fun _ after =>
      (∃ function, FrameDue tokens id function after) ∧ state.pos < after.pos := by
  have entry := file.inv.types.entries symbol.ty declared typed
  have resultHas : state.program.types.Has result :=
    entry.refs result (by simp [kind, TyKind.refs])
  have begun := file.begin resultHas
  refine .run rfl ?_
  refine .bind (functionBody_meets allSound sound enough begun rfl rfl
    (entry.params result params kind)) ?_
  rintro ⟨symbols, body⟩ middle read
  obtain ⟨context, inside, same⟩ : ∃ context, middle.function = some context ∧
      context.result = result := by
    have kept := read.ran.result
    obtain ⟨context, inside, equal⟩ := Option.map_eq_some_iff.mp kept
    exact ⟨context, inside, equal⟩
  have own : middle.locals = context.locals := by simp [State.locals, inside]
  have scopes : middle.scopes.blocks = [] := by
    have depth := read.ran.outer.depth
    change middle.scopes.blocks.length = state.scopes.blocks.length at depth
    rw [file.file] at depth
    exact List.eq_nil_of_length_eq_zero depth
  have foundThen := read.ran.extended.symbols id symbol found
  have typedThen := read.ran.extended.types symbol.ty declared typed
  refine .run (finishFunction_run inside) ?_
  have unplaced : ∀ other ∈ context.locals, ∃ entry,
      middle.program.symbol? other = some entry ∧ entry.kind = .localVar none := by
    rw [← own]
    exact read.ran.inv.locals
  have ruled : ∀ other ∈ context.locals, middle.program.LocalRule other := by
    intro other member
    obtain ⟨entry, there, unplacedKind⟩ := unplaced other member
    obtain ⟨ty, tyFound, sized⟩ := (read.ran.inv.symbols other entry there).sized
      (by simp [Symbol.isLocal, unplacedKind])
    exact ⟨entry, ty, there, tyFound, sized, read.ran.inv.types.align _ ty tyFound,
      read.ran.inv.types.align_le _ ty tyFound⟩
  have nodup : context.locals.Nodup := by
    rw [← own]
    exact read.ran.inv.locals_nodup
  have sameTokens : ({ middle with function := none } : State).tokens = tokens :=
    read.ran.inv.same
  refine .bind (checkGotos_meets sameTokens context) ?_
  rintro _ _ ⟨rfl, targets⟩
  have labels : middle.program.LabelRule tokens body :=
    read.accounts.labelRule rfl (by simp [State.signs, inside])
      (read.ran.inv.labels_nodup context inside) targets
  have kindThen : declared.kind = .func context.result params := by
    rw [same]
    exact kind
  have extent := Program.frameExtent_setSymbolKind middle.program id
    (.function ⟨symbols, context.locals, some body, 0⟩)
  refine ⟨⟨⟨symbols, context.locals, some body, 0⟩, sameTokens, ?_, ?_⟩, read.forward⟩
  · exact ⟨_, Program.symbol?_setSymbolKind_self foundThen _, rfl⟩
  · change Program.OverflowsOr _ (middle.program.setSymbolKind id _)
      (_ < (middle.program.setSymbolKind id _).frameExtent context.locals) _
    have global : symbol.isLocal = false := by simp [Symbol.isLocal, declaredAs]
    have laid := @Program.layoutFrame_overflowsOr _ _ _ foundThen global
      ⟨symbols, context.locals, some body, 0⟩ ruled unplaced nodup
    rw [extent]
    refine laid.weaken fun _ new defined =>
      ⟨⟨new.nodes.size, ?_⟩, defined.frame.size_le, _, defined.own, rfl⟩
    refine read.ran.inv.define inside scopes defined declaredAs rfl typedThen
      kindThen ?_ ?_ read.fit rfl read.part labels
    · change symbols.length ≤ 6
      rw [read.length]
      exact few
    · rw [← own]
      exact read.first

/-! ## Declarations at file scope -/

/-- The text of an identifier has no dot. -/
theorem Inv.undotted (inv : Inv tokens base state) (sound : tokens.Sound) {tok : Nat}
    (identifier : (tokens.get tok).isIdentifier = true) :
    Undotted (state.token tok).text := by
  rw [State.token, inv.same]
  exact sound.undotted identifier

theorem newFunction_meets (inv : Inv tokens base state) {name : String}
    (undotted : Undotted name) {ty : TyId} (callable : state.program.Callable ty)
    (isStatic : Bool) :
    Meets tokens (newFunction name ty isStatic) state fun id after =>
      Ran tokens base state after ∧ after.pos = state.pos ∧
        after.program.symbol? id =
          some ⟨name, ty, isStatic, .function ⟨[], [], none, 0⟩⟩ := by
  let symbol : Symbol := ⟨name, ty, isStatic, .function ⟨[], [], none, 0⟩⟩
  have rule : SymbolRule state.program symbol := by
    refine ⟨?_, by simp [symbol, Symbol.isLocal], fun _ _ => ⟨undotted, callable⟩⟩
    obtain ⟨_, _, _, _, found, _⟩ := callable
    exact .of_get? found
  have bodiless :
      ∀ function, symbol.kind = .function function -> function.body = none := by
    intro function equal
    obtain rfl : ⟨[], [], none, 0⟩ = function := by simpa [symbol] using equal
    rfl
  refine (bindGlobal_meets inv rule undotted rfl bodiless).weaken ?_
  rintro id after ⟨ran, _, stays, there⟩
  exact ⟨ran, stays, there⟩

theorem newGlobal_meets (inv : Inv tokens base state) {name : String}
    (undotted : Undotted name) {ty : TyId} (has : state.program.types.Has ty)
    (isStatic : Bool) :
    Meets tokens (newGlobal name ty isStatic) state fun _ after =>
      Ran tokens base state after ∧ after.pos = state.pos := by
  let symbol : Symbol := ⟨name, ty, isStatic, .globalVar none⟩
  have rule : SymbolRule state.program symbol :=
    ⟨has, by simp [symbol, Symbol.isLocal], by simp [symbol]⟩
  refine (bindGlobal_meets inv rule undotted rfl (by simp [symbol])).weaken ?_
  rintro id after ⟨ran, _, stays, _⟩
  exact ⟨ran, stays⟩

theorem declareGlobal_meets (sound : tokens.Sound) {before : State}
    {declared : Declarator}
    (read : DeclaratorRead tokens base before declared state) (storage : Storage) :
    Meets tokens (declareGlobal storage declared) state fun _ after =>
      Ran tokens base state after ∧ after.pos = state.pos := by
  refine requireName_meets read ?_
  intro tok identifier _
  obtain ⟨entry, found⟩ := TypeTable.has_iff.mp read.has
  refine .bind (checkVariableTy_meets read.ran.inv found tok) ?_
  rintro _ _ ⟨rfl, _⟩
  have undotted := read.ran.inv.undotted sound identifier
  refine .get (.bind (newGlobal_meets read.ran.inv undotted read.has storage.isStatic) ?_)
  intro _ after declared
  exact .pure declared

/-- A function declared by a declarator, but for the layout of its frame: the function and
the token of its name if that is due. -/
def functionUpToFrame (again : Productions) (declared : Declarator) (storage : Storage) :
    Parser (Option (SymbolId × Nat)) := do
  let tok ← declared.requireName
  let (result, params) ← signature declared.ty tok
  let id ← newFunction ((← get).token tok).text declared.ty storage.isStatic
  if ← accept ";" then
    return none
  else
    definitionUpToFrame again id result params
    return some (id, tok)

/-- A declaration at file scope, but for the layout of a frame: the function that is
defined and the token of its name if that is due. -/
def declarationUpToFrame (again : Productions) : Parser (Option (SymbolId × Nat)) := do
  let (base, storage) ← specifiers again true
  if storage.isTypedef then
    typedefNames again base
    return none
  else if ← accept ";" then
    return none
  else
    let declared ← declarator again base
    if (← lookupTy declared.ty).isFunction then
      functionUpToFrame again declared storage
    else
      globalVariables again base declared storage
      return none

/-- Lay out the frame that is due. -/
def layoutDue : Option (SymbolId × Nat) -> Parser Unit
  | none => return
  | some (id, tok) => layoutFrame id tok

/-- The layout of the frame is the last step of a declaration. -/
theorem fileDeclaration_eq (again : Productions) :
    fileDeclaration again = declarationUpToFrame again >>= layoutDue := by
  have function_eq (declared : Declarator) (storage : Storage) :
      function again declared storage =
        functionUpToFrame again declared storage >>= layoutDue := by
    unfold function functionUpToFrame
    simp only [functionDefinition_eq, bind_assoc]
    refine bind_congr fun tok => bind_congr fun signed => bind_congr fun state =>
      bind_congr fun id => bind_congr fun accepted => ?_
    cases accepted <;> simp [layoutDue]
  unfold fileDeclaration declarationUpToFrame
  simp only [bind_assoc, function_eq]
  refine bind_congr fun read => ?_
  split
  · simp [layoutDue]
  · simp only [bind_assoc]
    refine bind_congr fun accepted => ?_
    cases accepted with
    | true => simp [layoutDue]
    | false =>
        simp only [Bool.false_eq_true, if_false, bind_assoc]
        refine bind_congr fun declared => bind_congr fun entry => ?_
        split <;> simp [layoutDue]

/-- What a declaration leaves: a state at file scope, or a function that waits for its
frame. -/
def Declared (tokens : TokenStream) : Option (SymbolId × Nat) -> State -> Prop
  | none, state => ∃ last, AtFile tokens last state
  | some (id, _), state => ∃ function, FrameDue tokens id function state

section File

variable (allSound : again.Sound tokens budget) (sound : tokens.Sound)
variable (enough : tokens.last ≤ budget)

include allSound sound enough

/-- A function declared by a declarator that has been read from a state on. -/
theorem functionUpToFrame_meets {before : State} {declared : Declarator}
    (file : AtFile tokens base state)
    (read : DeclaratorRead tokens base before declared state) (storage : Storage) :
    Meets tokens (functionUpToFrame again declared storage) state fun due after =>
      Declared tokens due after ∧ before.pos < after.pos := by
  refine requireName_meets read ?_
  intro tok identifier forward
  obtain ⟨entry, found⟩ := TypeTable.has_iff.mp read.has
  refine .bind (signature_meets file.inv found tok) ?_
  rintro ⟨result, params⟩ _ ⟨rfl, kind, few, callable⟩
  refine .get ?_
  have undotted := file.inv.undotted sound identifier
  refine .bind (newFunction_meets file.inv undotted callable storage.isStatic) ?_
  rintro id middle ⟨ran, stays, there⟩
  have fileThen := file.run ran
  refine .accept sound ran.inv.same ?_ ?_
  · intro _ further
    refine .pure ⟨⟨base, fileThen.run (.next ran.inv further)⟩, ?_⟩
    change before.pos < middle.pos + 1
    rw [stays]
    omega
  · intro _
    refine .bind (definitionUpToFrame_meets allSound sound enough fileThen there rfl
      (ran.extended.types declared.ty entry found) kind few) ?_
    rintro _ after ⟨due, ahead⟩
    refine .pure ⟨due, ?_⟩
    rw [stays] at ahead
    omega

/-- Declarators behind the first are read one by one. -/
theorem globalVariables_meets {before : State} {declared : Declarator}
    (inv : Inv tokens base before)
    (read : DeclaratorRead tokens base before declared state) {ty : TyId}
    (has : before.program.types.Has ty) (storage : Storage) :
    Meets tokens (globalVariables again ty declared storage) state fun _ after =>
      Ran tokens base before after ∧ before.pos < after.pos := by
  refine .iterate (fun declared current => ∃ start, Ran tokens base before start ∧
      DeclaratorRead tokens base start declared current)
    (fun _ current => tokens.last - current.pos) read.ran.inv.same
    ⟨before, .refl inv, read⟩ (by omega) ?_
  rintro declared current ⟨start, ran, declaredRead⟩
  refine .bind (declareGlobal_meets sound declaredRead storage) ?_
  rintro _ middle ⟨entered, stays⟩
  have whole := (ran.trans declaredRead.ran).trans entered
  refine .accept sound whole.inv.same ?_ ?_
  · intro _ further
    exact .pure ⟨whole.trans (.next whole.inv further), Nat.lt_succ_of_le whole.forward⟩
  intro _
  refine .expect sound whole.inv.same fun _ further => ?_
  have stepped := whole.trans (Ran.next whole.inv further)
  have near : tokens.last - middle.next.pos ≤ budget := by omega
  refine .bind (declarator_meets allSound sound stepped.inv near (stepped.has has)) ?_
  intro next after nextRead
  refine .pure ⟨⟨middle.next, stepped, nextRead⟩, ?_⟩
  have forward := nextRead.ran.forward
  have bounded := nextRead.ran.inv.cursor
  rw [State.next_pos, stays] at forward
  omega

theorem declarationUpToFrame_meets (file : AtFile tokens base state) :
    Meets tokens (declarationUpToFrame again) state fun due after =>
      Declared tokens due after ∧ state.pos < after.pos := by
  have near : tokens.last - state.pos ≤ budget := by omega
  refine .bind (specifiers_meets sound allSound file.inv near true) ?_
  rintro ⟨ty, storage⟩ first read
  have closeEnough : tokens.last - first.pos ≤ budget := by omega
  have fileThen := file.run read.ran
  have forward := read.ran.forward
  dsimp only
  split
  · refine .bind (typedefNames_meets allSound sound read.ran.inv closeEnough read.has) ?_
    rintro _ after ⟨ran, ahead⟩
    exact .pure ⟨⟨base, fileThen.run ran⟩, by omega⟩
  refine .accept sound read.ran.inv.same ?_ ?_
  · intro _ further
    exact .pure ⟨⟨base, fileThen.run (.next read.ran.inv further)⟩,
      Nat.lt_succ_of_le forward⟩
  intro _
  refine .bind (declarator_meets allSound sound read.ran.inv closeEnough read.has) ?_
  intro declared second declaredRead
  obtain ⟨entry, found⟩ := TypeTable.has_iff.mp declaredRead.has
  refine lookupTy_meets found ?_
  split
  · refine (functionUpToFrame_meets allSound sound enough (fileThen.run declaredRead.ran)
      declaredRead storage).weaken ?_
    rintro due after ⟨left, ahead⟩
    exact ⟨left, by omega⟩
  · refine .bind (globalVariables_meets allSound sound enough read.ran.inv
      declaredRead read.has storage) ?_
    rintro _ after ⟨ran, ahead⟩
    exact .pure ⟨⟨base, fileThen.run ran⟩, by omega⟩

theorem fileDeclaration_meets (file : AtFile tokens base state) :
    Meets tokens (fileDeclaration again) state fun _ after =>
      (∃ last, AtFile tokens last after) ∧ state.pos < after.pos := by
  rw [fileDeclaration_eq]
  refine .bind (declarationUpToFrame_meets allSound sound enough file) ?_
  rintro (_ | ⟨id, tok⟩) after ⟨left, ahead⟩
  · exact .pure ⟨left, ahead⟩
  · obtain ⟨function, due⟩ := left
    change Meets tokens (layoutFrame id tok) after _
    unfold Meets
    rcases due.layoutFrame_run tok with ⟨_, last, failed⟩ | ⟨_, last, laid,
      stays, fileThen, _⟩
    · rw [failed]
      exact ⟨_, tok, rfl⟩
    · rw [laid]
      exact ⟨fileThen, by omega⟩

/-- Each declaration consumes a token, so the tokens bound their number. -/
theorem unit_meets (file : AtFile tokens base state) :
    Meets tokens (unit again) state fun _ after => ∃ last, AtFile tokens last after := by
  refine .iterate (fun _ current => ∃ last, AtFile tokens last current)
    (fun _ current => tokens.last - current.pos) file.inv.same ⟨base, file⟩ (by omega) ?_
  rintro _ current ⟨here, now⟩
  refine .get ?_
  split
  · exact .pure ⟨here, now⟩
  · refine .bind (fileDeclaration_meets allSound sound enough now) ?_
    rintro _ after ⟨⟨last, later⟩, forward⟩
    refine .pure ⟨⟨last, later⟩, ?_⟩
    have bounded := later.inv.cursor
    omega

end File

theorem initial_types_sound : TypeTable.initial.Sound := by
  have plain : ∀ ty ∈ TypeTable.initial.entries,
      ty.kind.refs = [] ∧ 0 < ty.align ∧ ty.align ≤ 8 ∧ ty.size ≤ Extent.maxValue ∧
        ty.members = [] ∧ 0 ≤ ty.size ∧
        (ty.isInteger = true -> ty.size = ty.width.bytes) ∧
        ((Width.ofSize ty.size).bytes : Int) = ty.size := by decide
  refine ⟨fun _ _ found => found, fun id ty found => ?_⟩
  obtain ⟨refs, align, narrow, small, members, size, width, moved⟩ :=
    plain ty (Array.mem_of_getElem? found)
  refine ⟨by simp [refs], align, narrow, small, .of_nil members,
    fun negative => by omega, width, fun _ _ => moved, ?_⟩
  intro result params kind
  simp [kind, TyKind.refs] at refs

/-- The state before the first token. -/
theorem initial_atFile (tokens : TokenStream) : AtFile tokens 0 (.initial tokens) := by
  have noNode (id : NodeId) : Program.empty.node? id = none := rfl
  have noSymbol (id : SymbolId) : Program.empty.symbol? id = none := rfl
  refine ⟨?_, rfl, rfl⟩
  exact
    { same := rfl
      cursor := Nat.zero_le _
      base_le := Nat.zero_le _
      types := initial_types_sound
      nodes := by
        intro id node found
        cases (noNode id).symm.trans found
      symbols := by
        intro id symbol found
        cases (noSymbol id).symm.trans found
      globals := by
        intro id member
        cases (Array.not_mem_empty id) member
      listing := .empty
      scopes :=
        ⟨⟨fun _ _ member => (by cases member), fun _ _ member => (by cases member)⟩,
          fun _ member => (by cases member)⟩
      locals_nodup := List.nodup_nil
      locals := fun _ member => by cases member
      result := fun _ equal => by cases equal
      home := fun _ equal => by cases equal
      labels_nodup := fun _ equal => by cases equal
      finished := by
        intro id symbol function body found
        cases (noSymbol id).symm.trans found
      labelled := by
        intro id symbol function body found
        cases (noSymbol id).symm.trans found }

end Grammar

/-- From tokens that the lexer has cut, parsing gives a program that keeps the rules, or
rejects the source text at one of the tokens. -/
theorem parse_cases {tokens : TokenStream} (sound : tokens.Sound) :
    (∃ program, parse tokens = .ok program ∧ program.Sound tokens) ∨
      ∃ error, parse tokens = .error error ∧ Grammar.RejectsAt tokens error := by
  have whole := Grammar.unit_meets
    (Grammar.productions_sound sound (tokens.last + 1)) sound
    (Nat.le_succ _) (Grammar.initial_atFile tokens)
  unfold Grammar.Meets at whole
  unfold parse
  split at whole
  · rename_i after reached
    obtain ⟨base, file⟩ := whole
    rw [reached]
    exact .inl ⟨after.program, rfl, file.inv.sound⟩
  · rename_i error after reached
    rw [reached]
    exact .inr ⟨error, rfl, whole⟩

end MiniC
