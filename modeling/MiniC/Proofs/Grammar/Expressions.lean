import MiniC.Grammar.Expression
import MiniC.Proofs.Grammar.Declarations

/-!
# Expressions keep the invariant

Every production of expressions consumes a token and gives a node that is an expression of
the function being parsed, or rejects the source text at a token.
-/

namespace MiniC
namespace Grammar

variable {tokens : TokenStream} {base budget : Nat} {state : State} {again : Productions}

/-! ## Names and members -/

/-- The symbol that a call names is there. -/
theorem callee_meets (inv : Inv tokens base state) (name : String) (tok : Nat) :
    Meets tokens (callee name tok) state fun id after =>
      after = state ∧ ∃ symbol, state.program.symbol? id = some symbol ∧
        symbol.name = name := by
  refine .get ?_
  split
  · rename_i id found
    obtain ⟨symbol, there, named, _⟩ := inv.scopes.lookupVariable? found
    exact .pure ⟨rfl, symbol, there, named⟩
  · exact .failAt inv.same
  · exact .failAt inv.same

/-- A member that is found by its name has the index and the type found. -/
theorem findMember?_some {members : List Member} {name : String} {index : Nat} {ty : TyId}
    (found : findMember? members name = some (index, ty)) :
    ∃ member, members[index]? = some member ∧ member.ty = ty := by
  obtain ⟨⟨member, place⟩, there, equal⟩ := Option.map_eq_some_iff.mp found
  obtain ⟨rfl, rfl⟩ : place = index ∧ member.ty = ty := by simpa using equal
  have inside := List.mem_of_find?_eq_some there
  exact ⟨member, by simpa [List.mem_zipIdx_iff_getElem?] using inside, rfl⟩

/-- A name stands for a variable or a constant. -/
theorem variableReference_meets (sound : tokens.Sound) (inv : Inv tokens base state) :
    Meets tokens variableReference state (ValueRead tokens base state) := by
  refine .identifier sound inv.same fun _ before => ?_
  have named := Ran.next inv before
  refine .get ?_
  split
  · rename_i id found
    obtain ⟨symbol, there, _, reached⟩ := named.inv.scopes.lookupVariable? found
    refine (newVar_meets named.inv there reached state.pos).weaken ?_
    intro node after built
    exact built.read named (Nat.lt_succ_self _)
  · rename_i ty value found
    obtain ⟨entry, typeFound, integer⟩ := named.inv.scopes.lookupVariable? found
    have enterable : Enterable base state.next (.num value) :=
      .ofOperands (by simp [NodeKind.operands]) rfl (by simp) (by simp)
    refine (newTyped_meets named.inv enterable trivial (.of_get? typeFound)
      ⟨entry, typeFound, integer⟩ state.pos).weaken ?_
    intro node after entered
    exact (entered.built rfl).read named (Nat.lt_succ_self _)
  · exact .failAt named.inv.same

/-- Access to a member consumes its name. -/
theorem memberAccess_meets (sound : tokens.Sound) (inv : Inv tokens base state)
    {aggregate : NodeId} (present : Operand base state aggregate) :
    Meets tokens (memberAccess aggregate) state fun id after => ∃ middle,
      Ran tokens base state middle ∧ state.pos < middle.pos ∧
        Built tokens base [aggregate] middle id after := by
  obtain ⟨ty, entry, typed⟩ := present.hasTy inv
  obtain ⟨_, _, _, found⟩ := id typed
  refine typeOf_meets typed (.identifier sound inv.same fun _ before => ?_)
  have named := Ran.next inv before
  have foundThen : state.next.program.types.get? ty = some entry := found
  refine lookupTy_meets foundThen ?_
  refine .rejectUnless (.failAt named.inv.same) fun _ => ?_
  split
  · exact .failAt named.inv.same
  · rename_i index memberTy there
    obtain ⟨member, placed, rfl⟩ := findMember?_some there
    have inside := List.mem_of_getElem? placed
    have has : state.next.program.types.Has member.ty := by
      refine named.inv.types.refs ty entry foundThen member.ty ?_
      unfold Ty.members at inside
      split at inside
      · rename_i form members kind
        rw [kind]
        exact List.mem_map_of_mem inside
      · cases inside
    have enterable : Enterable base state.next (.member aggregate ty index) := by
      refine .ofOperands ?_ rfl (by simp) (by simp)
      intro child single
      obtain rfl := List.mem_singleton.mp single
      exact named.operand present
    have bound : index < entry.members.length := (List.getElem?_eq_some_iff.mp placed).1
    refine (newTyped_meets named.inv enterable ⟨entry, foundThen, bound⟩ has
      ⟨entry, member, named.extended.hasTy typed, placed, rfl⟩ state.pos).weaken ?_
    intro node after entered
    exact ⟨state.next, named, Nat.lt_succ_self _, entered.built rfl⟩

/-! ## Calls -/

section Calls

variable (allSound : again.Sound tokens budget)

include allSound

/-- An argument is no struct or union, and has the type of its parameter. -/
theorem argument_meets (inv : Inv tokens base state)
    (close : tokens.last - state.pos < budget) (inside : InFunction state)
    {param : Option Param}
    (has : ∀ declared, param = some declared -> state.program.types.Has declared.ty) :
    Meets tokens (argument again param) state fun id after =>
      ValueRead tokens base state id after ∧ after.program.ArgumentRule param id := by
  refine .position (.bind (allSound.assign inv close inside) ?_)
  intro value first read
  obtain ⟨own, entry, typed⟩ := read.operand.hasTy read.ran.inv
  refine nodeTy_meets typed ?_
  refine .rejectIf (.failAt read.ran.inv.same) fun scalar => ?_
  cases param with
  | none => exact .pure ⟨read, ⟨own, entry, typed, by simpa using scalar⟩, by simp⟩
  | some declared =>
      refine (newCast_meets read.ran.inv read.operand (read.ran.has (has declared rfl))
        state.pos).weaken ?_
      intro id after entered
      refine ⟨read.build (entered.built rfl), ?_⟩
      obtain ⟨node, there, kind, nodeTyped⟩ := entered.node
      obtain ⟨ty, sameTyped, _, rule⟩ := (entered.ran.inv.nodes id node there).typed
      obtain rfl : declared.ty = ty := by simpa [nodeTyped] using sameTyped
      rw [kind] at rule
      obtain ⟨target, _, _, found, targetScalar, _⟩ := rule
      have castTyped := entered.hasTy found
      exact ⟨⟨declared.ty, target, castTyped, targetScalar⟩, by
        simpa using ⟨target, castTyped⟩⟩

variable (sound : tokens.Sound)

include sound

/-- The arguments of a call are converted to the types of the parameters. -/
theorem arguments_meets (inv : Inv tokens base state)
    (close : tokens.last - state.pos < budget) (inside : InFunction state)
    {params : List Param}
    (has : ∀ param ∈ params, state.program.types.Has param.ty) :
    Meets tokens (arguments again params) state fun args after =>
      Moved tokens base state after ∧ (∀ arg ∈ args, Operand base after arg) ∧
        after.program.ArgumentsRule params args ∧ Accounts tokens state after args := by
  refine .commaList sound (fun args after =>
    Moved tokens base state after ∧ (∀ arg ∈ args, Operand base after arg) ∧
      after.program.ArgumentsRule params args ∧ Accounts tokens state after args) ?_ ?_ ?_
    ⟨.refl inv, by simp, by simp [Program.ArgumentsRule], .none rfl⟩
  · rintro args current ⟨ran, _⟩
    exact ⟨ran.inv.same, ran.inv.cursor⟩
  · rintro args current ⟨ran, present, ruled, accounts⟩ before
    have stepped := Ran.next ran.inv before
    exact ⟨ran.trans stepped.toMoved, fun arg member => stepped.operand
      (present arg member), ruled, accounts.onward stepped⟩
  · rintro args current ⟨ran, present, ruled, accounts⟩ ahead
    refine (argument_meets allSound ran.inv (by omega) (ran.inFunction inside) ?_).weaken
      ?_
    · intro declared found
      exact ran.has (has declared (List.mem_of_getElem? found))
    · rintro arg after ⟨read, rule⟩
      refine ⟨⟨ran.trans read.ran, ?_, ?_, ?_⟩, read.ran.forward⟩
      · intro other member
        rcases List.mem_append.mp member with earlier | single
        · exact read.ran.operand (present other earlier)
        · obtain rfl := List.mem_singleton.mp single
          exact read.operand
      · exact (read.ran.grows.argumentsRule ruled).append rule
      · exact accounts.append read.accounts read.ran.extended

/-- A call has a function and at most six arguments. -/
theorem call_meets (inv : Inv tokens base state)
    (near : tokens.last - state.pos ≤ budget) (inside : InFunction state) :
    Meets tokens (call again) state (ValueRead tokens base state) := by
  refine .identifier sound inv.same fun _ before => ?_
  have named := Ran.next inv before
  refine .expect sound named.inv.same fun _ further => ?_
  have opened := named.trans (Ran.next named.inv further)
  refine .bind (callee_meets opened.inv _ _) ?_
  rintro function _ ⟨rfl, symbol, found, spelled⟩
  have typed := (opened.inv.symbols function symbol found).typed
  obtain ⟨entry, there⟩ := TypeTable.has_iff.mp typed
  refine .query (lookupSymbol_of_some found) (lookupTy_meets there ?_)
  split
  · rename_i result params kind
    have has {ref : TyId} (member : ref ∈ result :: params.map (·.ty)) :
        state.next.next.program.types.Has ref := by
      refine opened.inv.types.refs symbol.ty entry there ref ?_
      rw [kind]
      exact member
    have closer : tokens.last - state.next.next.pos < budget :=
      opened.closer near (Nat.lt_succ_of_lt (Nat.lt_succ_self _))
    refine .bind (arguments_meets allSound sound opened.inv closer
      (opened.inFunction inside) ?_) ?_
    · intro param member
      exact has (List.mem_cons_of_mem _ (List.mem_map_of_mem member))
    rintro args after ⟨ran, present, ruled, accounts⟩
    refine .rejectIf (.failAt ran.inv.same) fun few => ?_
    have enterable : Enterable base after (.call function args) :=
      .ofOperands present rfl (by simp) (by simp)
    have declared := ran.extended.symbols function symbol found
    have rule : after.program.KindRule (.call function args) := by
      refine ⟨⟨symbol, declared⟩, ?_⟩
      unfold maxArguments at few
      omega
    have typing : after.program.TypingRule result (.call function args) :=
      ⟨symbol, entry, params, declared, ran.extended.types symbol.ty entry there, kind,
        ruled⟩
    have called : after.program.name? function = some (tokens.get state.pos).text := by
      rw [Program.name?, declared, Option.map_some, spelled, ← inv.same]
      rfl
    refine (newTyped_meets ran.inv enterable rule
      (ran.has (has List.mem_cons_self)) typing
      state.pos fun other others equal => ?_).weaken ?_
    · cases equal
      exact called
    intro id last entered
    have built := entered.built rfl
    refine ⟨(opened.toMoved.trans ran).trans entered.ran.toMoved, ?_, built.operand, ?_⟩
    · rw [entered.stays]
      have forward := ran.forward
      simp only [State.next_pos] at forward
      omega
    · exact (accounts.behind opened).build built.bears built.ran.signs
  · exact .failAt opened.inv.same

end Calls

/-! ## Primary expressions -/

/-- Taking the statements out of a block entered since the start of a run. -/
theorem takeBlock_meets {before : State} (ran : Moved tokens base before state)
    (inside : InFunction state) {block : NodeId} (near : base ≤ block.index)
    (fresh : before.program.nodes.size ≤ block.index) {node : Node} {body : List NodeId}
    (found : state.program.node? block = some node) (kind : node.kind = .block body)
    (accounts : Accounts tokens before state [block]) (tok : Nat) :
    Meets tokens (takeBlock block tok) state fun taken after =>
      Moved tokens base before after ∧ after.pos = state.pos ∧
        (∀ part ∈ taken, Part base after part) ∧ Accounts tokens before after taken := by
  obtain ⟨context, function⟩ := Option.isSome_iff_exists.mp inside.function
  have rule := ran.inv.nodes block node found
  have home := ran.inv.home context function block node near found
  have other {id : NodeId} (different : id.index ≠ block.index) :
      ({ state.program with
        nodes := state.program.nodes.modify block.index fun node =>
          { node with kind := .block [] } } : Program).node? id =
            state.program.node? id := by
    change (state.program.nodes.modify block.index _)[id.index]? = _
    rw [Array.getElem?_modify, if_neg (fun equal => different equal.symm)]
    rfl
  refine .query (lookupNode_of_some found) ?_
  rw [kind]
  refine .run rfl (.pure ⟨⟨ran.inv.emptyBlock found kind near, ⟨ran.extended.types, ?_,
    ran.extended.symbols⟩, ran.result, ran.locals, ran.outer, ran.forward⟩, rfl, ?_, ?_⟩)
  · intro id earlier there
    have bound := (Array.getElem?_eq_some_iff.mp there).1
    rw [other (by omega)]
    exact ran.extended.nodes id earlier there
  · intro part member
    have inParts : part ∈ node.kind.parts := by
      rw [kind]
      exact member
    have child : part ∈ node.kind.children := NodeKind.mem_children.mpr (.inr inParts)
    obtain ⟨entry, there, statement⟩ := rule.parts part inParts
    have earlier := rule.earlier part child
    refine ⟨home.near part child, entry, ?_, statement⟩
    rw [other (by omega)]
    exact there
  · -- The statements come before the block, so that their trees do not change.
    refine accounts.build (fun signs bears => ?_) rfl
    obtain ⟨others, below, order⟩ := bears.children found
    rw [kind] at order below
    have lower : ∀ id ∈ body, id.index < block.index :=
      fun id member => rule.earlier id (by rw [kind]; exact member)
    exact (below.congr ran.inv.earlier lower fun id lower => other (by omega)).reorder
      order

/-- An operator before a cast expression. -/
theorem prefixed_meets (allSound : again.Sound tokens budget)
    (inv : Inv tokens base state)
    (near : tokens.last - state.pos ≤ budget) (inside : InFunction state)
    (before : state.pos < tokens.last) {build : NodeId -> Parser NodeId}
    (builds : ∀ {current operand}, Inv tokens base current ->
      Operand base current operand ->
      Meets tokens (build operand) current (Built tokens base [operand] current)) :
    Meets tokens (again.cast >>= build) state.next (ValueRead tokens base state) := by
  have stepped := Ran.next inv before
  refine .bind (allSound.cast stepped.inv (stepped.closer near (Nat.lt_succ_self _))
    (stepped.inFunction inside)) ?_
  intro operand first read
  refine (builds read.ran.inv read.operand).weaken ?_
  intro id after built
  exact (read.build built).behind stepped

section Primary

variable (allSound : again.Sound tokens budget) (sound : tokens.Sound)

include allSound sound

/-- A statement expression has a value at its end. -/
theorem statementExpression_meets (inv : Inv tokens base state)
    (near : tokens.last - state.pos ≤ budget) (inside : InFunction state)
    (opens : state.sees "(" = true)
    (braces : state.seesAt (state.pos + 1) openBrace = true) :
    Meets tokens (statementExpression again) state (ValueRead tokens base state) := by
  have before := Meets.lt_last_of_sees sound inv.same opens
  have first := Ran.next inv before
  have further := Meets.lt_last_of_sees sound first.inv.same braces
  have second := first.trans (Ran.next first.inv further)
  refine .position (.advance inv.same before (.advance first.inv.same further ?_))
  have closer : tokens.last - state.next.next.pos < budget :=
    second.closer near (Nat.lt_succ_of_lt (Nat.lt_succ_self _))
  refine .bind (allSound.block second.inv closer (second.inFunction inside)) ?_
  intro block third read
  obtain ⟨node, body, found, kind⟩ := read.block
  refine .expect sound read.ran.inv.same fun _ last => ?_
  have closing := Ran.next read.ran.inv last
  have closed := (second.toMoved.trans read.ran).trans closing.toMoved
  have accounts := (read.accounts.behind second).onward closing
  refine .bind (takeBlock_meets closed (closed.inFunction inside)
    read.part.near read.fresh found kind accounts state.pos) ?_
  rintro taken fourth ⟨ran, stays, parts, taking⟩
  refine (newStatementExpression_meets ran.inv parts state.pos).weaken ?_
  intro id after built
  refine ⟨ran.trans built.ran.toMoved, ?_, built.operand,
    taking.build built.bears built.ran.signs⟩
  rw [built.stays, stays, State.next_pos]
  have forward := (second.toMoved.trans read.ran).forward
  omega

/-- Of the operand of a `sizeof` only the type is kept. -/
theorem sizeofOperand_meets (inv : Inv tokens base state)
    (close : tokens.last - state.pos < budget) (inside : InFunction state)
    (sized : ¬ tokens.Unsized) (tok : Nat) :
    Meets tokens (sizeofOperand again tok) state fun ty after =>
      Moved tokens base state after ∧ after.program.types.Has ty ∧
        Accounts tokens state after [] := by
  refine .get ?_
  split
  · rename_i typed
    simp only [Bool.and_eq_true] at typed
    have before := Meets.lt_last_of_sees sound inv.same typed.1
    have opened := Ran.next inv before
    have closer : tokens.last - state.next.pos ≤ budget :=
      Nat.le_of_lt (opened.closer (Nat.le_of_lt close) (Nat.lt_succ_self _))
    refine .advance inv.same before ?_
    refine .bind (typeName_meets sound allSound opened.inv closer) ?_
    intro ty first read
    refine .expect sound read.ran.inv.same fun _ further => .pure ?_
    have whole := (opened.trans read.ran).trans (Ran.next read.ran.inv further)
    exact ⟨whole.toMoved, read.has, .none whole.signs⟩
  · refine .bind (allSound.unary inv close inside) ?_
    intro operand first read
    obtain ⟨ty, entry, typed⟩ := read.operand.hasTy read.ran.inv
    exact typeOf_meets_last typed
      ⟨read.ran, Program.HasTy.has typed, read.accounts.drop sized⟩

/-- A `sizeof` behind its keyword. -/
theorem sizeof_meets (inv : Inv tokens base state)
    (close : tokens.last - state.pos < budget) (inside : InFunction state)
    (sized : ¬ tokens.Unsized) (tok : Nat) :
    Meets tokens (sizeof again tok) state fun id after =>
      Moved tokens base state after ∧ Operand base after id ∧
        Accounts tokens state after [id] := by
  refine .bind (sizeofOperand_meets allSound sound inv close inside sized tok) ?_
  rintro ty first ⟨ran, has, accounts⟩
  obtain ⟨entry, found⟩ := TypeTable.has_iff.mp has
  refine lookupTy_meets found ?_
  refine .rejectIf (.failAt ran.inv.same) fun _ => ?_
  refine (newNum_meets ran.inv entry.size tok).weaken ?_
  intro id after built
  exact ⟨ran.trans built.ran.toMoved, built.operand,
    accounts.build built.bears built.ran.signs⟩

/-- A name, a string or a number. -/
theorem atom_meets (inv : Inv tokens base state)
    (near : tokens.last - state.pos ≤ budget) (inside : InFunction state) :
    Meets tokens (atom again) state (ValueRead tokens base state) := by
  refine .get ?_
  dsimp only
  split
  · split
    · exact call_meets allSound sound inv near inside
    · exact variableReference_meets sound inv
  · rename_i data kind
    have there : (tokens.get state.pos).kind = .str data := by
      rw [← inv.same]
      exact kind
    have before : state.pos < tokens.last := sound.lt_last (by simp [there])
    have stepped := Ran.next inv before
    refine .advance inv.same before ?_
    refine .bind (newStringLiteral_meets stepped.inv data state.pos) ?_
    rintro id first ⟨entered, stays, symbol, found, global⟩
    refine (newVar_meets entered.inv found (by simp [global]) state.pos).weaken ?_
    intro node after built
    refine built.read (stepped.trans entered) ?_
    rw [stays]
    exact Nat.lt_succ_self _
  · refine .number sound inv.same ?_
    intro value pos _ forward bounded
    have moved := Ran.move inv (Nat.le_of_lt forward) bounded
    refine (newNum_meets moved.inv value state.pos).weaken ?_
    intro node after built
    exact built.read moved forward
  · exact .failHere inv.same

/-- An expression in parentheses, a size or an atom. -/
theorem primary_meets (inv : Inv tokens base state)
    (near : tokens.last - state.pos ≤ budget) (inside : InFunction state) :
    Meets tokens (primary again) state (ValueRead tokens base state) := by
  refine .get ?_
  dsimp only
  split
  · rename_i opens
    simp only [Bool.and_eq_true] at opens
    exact statementExpression_meets allSound sound inv near inside opens.1 opens.2
  refine .accept sound inv.same ?_ ?_
  · intro _ before
    have opened := Ran.next inv before
    refine .bind (allSound.expr opened.inv (opened.closer near (Nat.lt_succ_self _))
      (opened.inFunction inside)) ?_
    intro inner first read
    refine .expect sound read.ran.inv.same fun _ further => .pure ?_
    exact (read.behind opened).onward (Ran.next read.ran.inv further)
  intro _
  refine .accept sound inv.same ?_ ?_
  · intro seen before
    have stepped := Ran.next inv before
    have sized : ¬ tokens.Unsized := by
      intro unsized
      have unseen := unsized state.pos
      rw [← inv.same] at unseen
      exact Bool.false_ne_true (unseen.symm.trans seen)
    refine (sizeof_meets allSound sound stepped.inv
      (stepped.closer near (Nat.lt_succ_self _))
      (stepped.inFunction inside) sized state.pos).weaken ?_
    rintro id after ⟨ran, operand, accounts⟩
    exact ⟨stepped.toMoved.trans ran, ran.forward, operand, accounts.behind stepped⟩
  · intro _
    exact atom_meets allSound sound inv near inside

/-- Each subscript or member access consumes a token. -/
theorem trailer_meets (inv : Inv tokens base state)
    (near : tokens.last - state.pos ≤ budget) (inside : InFunction state) :
    Meets tokens (trailer again) state (ValueRead tokens base state) := by
  refine .bind (primary_meets allSound sound inv near inside) ?_
  intro first start firstRead
  refine .iterate (ValueRead tokens base state)
    (fun _ current => tokens.last - current.pos)
    firstRead.ran.inv.same firstRead (by omega) ?_
  intro node current read
  have now := read.ran.inv
  refine .position ?_
  refine .accept sound now.same ?_ ?_
  · intro _ before
    have opened := Ran.next now before
    have whole := read.ran.trans opened.toMoved
    have ahead : state.pos < current.next.pos := Nat.lt_succ_of_lt read.forward
    refine .bind (allSound.expr opened.inv (whole.closer near ahead)
      (whole.inFunction inside)) ?_
    intro index second indexRead
    refine .expect sound indexRead.ran.inv.same fun _ further => ?_
    have right := (indexRead.behind opened).onward (Ran.next indexRead.ran.inv further)
    refine .bind (newAdd_meets right.ran.inv
      (right.ran.operand read.operand) right.operand current.pos) ?_
    intro sum third sumBuilt
    refine .bind (newDeref_meets sumBuilt.ran.inv sumBuilt.operand current.pos) ?_
    intro id after built
    refine .pure ⟨(read.join right sumBuilt).build built, ?_⟩
    have forward := right.forward
    have bounded := right.ran.inv.cursor
    rw [built.stays, sumBuilt.stays]
    omega
  intro _
  refine .accept sound now.same ?_ ?_
  · intro _ before
    have stepped := Ran.next now before
    refine .bind (memberAccess_meets sound stepped.inv (stepped.operand read.operand)) ?_
    rintro id after ⟨middle, named, forward, built⟩
    refine .pure ⟨(read.onward (stepped.trans named)).build built, ?_⟩
    have bounded := named.inv.cursor
    rw [State.next_pos] at forward
    rw [built.stays]
    omega
  intro _
  refine .accept sound now.same ?_ ?_
  · intro _ before
    have stepped := Ran.next now before
    refine .bind (newDeref_meets stepped.inv (stepped.operand read.operand) current.pos)
      ?_
    intro target second targetBuilt
    refine .bind (memberAccess_meets sound targetBuilt.ran.inv targetBuilt.operand) ?_
    rintro id after ⟨middle, named, forward, built⟩
    refine .pure ⟨(((read.onward stepped).build targetBuilt).onward named).build built,
      ?_⟩
    have bounded := named.inv.cursor
    rw [targetBuilt.stays, State.next_pos] at forward
    rw [built.stays]
    omega
  · intro _
    exact .pure read

/-- Operators in front of an operand. -/
theorem unary_meets (inv : Inv tokens base state)
    (near : tokens.last - state.pos ≤ budget) (inside : InFunction state) :
    Meets tokens (unary again) state (ValueRead tokens base state) := by
  refine .position (.accept sound inv.same ?_ ?_)
  · intro _ before
    have stepped := Ran.next inv before
    exact (allSound.cast stepped.inv (stepped.closer near (Nat.lt_succ_self _))
      (stepped.inFunction inside)).weaken fun _ _ read => read.behind stepped
  intro _
  refine .accept sound inv.same ?_ ?_
  · intro _ before
    exact prefixed_meets allSound inv near inside before
      fun now operand => newUnary_meets now .neg operand _
  intro _
  refine .accept sound inv.same ?_ ?_
  · intro _ before
    exact prefixed_meets allSound inv near inside before
      fun now operand => newAddr_meets now operand _
  intro _
  refine .accept sound inv.same ?_ ?_
  · intro _ before
    exact prefixed_meets allSound inv near inside before
      fun now operand => newDeref_meets now operand _
  intro _
  refine .accept sound inv.same ?_ ?_
  · intro _ before
    exact prefixed_meets allSound inv near inside before
      fun now operand => newUnary_meets now .not operand _
  intro _
  refine .accept sound inv.same ?_ ?_
  · intro _ before
    exact prefixed_meets allSound inv near inside before
      fun now operand => newUnary_meets now .bitNot operand _
  · intro _
    exact trailer_meets allSound sound inv near inside

/-- A type in parentheses in front of an operand. -/
theorem cast_meets (inv : Inv tokens base state)
    (near : tokens.last - state.pos ≤ budget) (inside : InFunction state) :
    Meets tokens (cast again) state (ValueRead tokens base state) := by
  refine .get ?_
  dsimp only
  split
  · rename_i typed
    simp only [Bool.and_eq_true] at typed
    have before := Meets.lt_last_of_sees sound inv.same typed.1
    have opened := Ran.next inv before
    have closer : tokens.last - state.next.pos ≤ budget :=
      Nat.le_of_lt (opened.closer near (Nat.lt_succ_self _))
    refine .advance inv.same before ?_
    refine .bind (typeName_meets sound allSound opened.inv closer) ?_
    intro ty first read
    refine .expect sound read.ran.inv.same fun _ further => ?_
    have closed := (opened.trans read.ran).trans (Ran.next read.ran.inv further)
    have ahead : state.pos < first.next.pos :=
      Nat.lt_succ_of_le (opened.trans read.ran).forward
    refine .bind (allSound.cast closed.inv (closed.closer near ahead)
      (closed.inFunction inside)) ?_
    intro operand second operandRead
    refine (newCast_meets operandRead.ran.inv operandRead.operand
      (operandRead.ran.has read.has) state.pos).weaken ?_
    intro id after entered
    exact (operandRead.build (entered.built rfl)).behind closed
  · exact unary_meets allSound sound inv near inside

end Primary

/-! ## Operators -/

/-- Two expressions can be joined. -/
def Joins (tokens : TokenStream) (base : Nat) (join : Join) : Prop :=
  ∀ {state lhs rhs}, Inv tokens base state -> Operand base state lhs ->
    Operand base state rhs -> ∀ tok,
      Meets tokens (join lhs rhs tok) state (Built tokens base [lhs, rhs] state)

/-- A chain of operands that are joined from left to right. -/
theorem leftChain_meets (sound : tokens.Sound) {operators : List (String × Join)}
    (joins : ∀ operator ∈ operators, Joins tokens base operator.2)
    {operand : Parser NodeId}
    (operands : ∀ {state}, Inv tokens base state -> tokens.last - state.pos ≤ budget ->
      InFunction state -> Meets tokens operand state (ValueRead tokens base state))
    (inv : Inv tokens base state) (near : tokens.last - state.pos ≤ budget)
    (inside : InFunction state) :
    Meets tokens (leftChain operators operand) state (ValueRead tokens base state) := by
  refine .bind (operands inv near inside) ?_
  intro first start firstRead
  refine .iterate (ValueRead tokens base state)
    (fun _ current => tokens.last - current.pos)
    firstRead.ran.inv.same firstRead (by omega) ?_
  intro lhs current read
  refine .get ?_
  split
  · exact .pure read
  · rename_i symbol join found
    have seen := List.find?_some found
    have before := Meets.lt_last_of_sees sound read.ran.inv.same seen
    have stepped := Ran.next read.ran.inv before
    have whole := read.ran.trans stepped.toMoved
    have ahead : state.pos < current.next.pos := Nat.lt_succ_of_lt read.forward
    refine .run (show _ = EStateM.Result.ok () current.next from rfl) ?_
    refine .bind (operands stepped.inv (Nat.le_of_lt (whole.closer near ahead))
      (whole.inFunction inside)) ?_
    intro rhs second rhsRead
    have right := rhsRead.behind stepped
    refine .bind (joins _ (List.mem_of_find?_eq_some found) right.ran.inv
      (right.ran.operand read.operand) right.operand current.pos) ?_
    intro id after built
    refine .pure ⟨read.join right built, ?_⟩
    have forward := right.forward
    have bounded := right.ran.inv.cursor
    rw [built.stays]
    omega

section Operators

variable (allSound : again.Sound tokens budget) (sound : tokens.Sound)

include allSound sound

/-- Products group to the left. -/
theorem product_meets (inv : Inv tokens base state)
    (near : tokens.last - state.pos ≤ budget) (inside : InFunction state) :
    Meets tokens (product again) state (ValueRead tokens base state) := by
  refine leftChain_meets sound ?_ (cast_meets allSound sound) inv near inside
  intro operator member
  simp only [List.mem_cons, List.not_mem_nil, or_false] at member
  rcases member with rfl | rfl | rfl
  · exact fun now left right tok => newIntegerBinary_meets now .mul left right tok
  · exact fun now left right tok => newIntegerBinary_meets now .div left right tok
  · exact fun now left right tok => newIntegerBinary_meets now .mod left right tok

/-- Sums group to the left, over products. -/
theorem sum_meets (inv : Inv tokens base state)
    (near : tokens.last - state.pos ≤ budget) (inside : InFunction state) :
    Meets tokens (sum again) state (ValueRead tokens base state) := by
  refine leftChain_meets sound ?_ (product_meets allSound sound) inv near inside
  intro operator member
  simp only [List.mem_cons, List.not_mem_nil, or_false] at member
  rcases member with rfl | rfl
  · exact fun now left right tok => newAdd_meets now left right tok
  · exact fun now left right tok => newSub_meets now left right tok

/-- Comparisons group to the left, over sums. -/
theorem relational_meets (inv : Inv tokens base state)
    (near : tokens.last - state.pos ≤ budget) (inside : InFunction state) :
    Meets tokens (relational again) state (ValueRead tokens base state) := by
  refine leftChain_meets sound ?_ (sum_meets allSound sound) inv near inside
  intro operator member
  simp only [List.mem_cons, List.not_mem_nil, or_false] at member
  rcases member with rfl | rfl | rfl | rfl <;>
    exact fun now left right tok => newTruth_meets now rfl left right tok

theorem equality_meets (inv : Inv tokens base state)
    (near : tokens.last - state.pos ≤ budget) (inside : InFunction state) :
    Meets tokens (equality again) state (ValueRead tokens base state) := by
  refine leftChain_meets sound ?_ (relational_meets allSound sound) inv near inside
  intro operator member
  simp only [List.mem_cons, List.not_mem_nil, or_false] at member
  rcases member with rfl | rfl <;>
    exact fun now left right tok => newTruth_meets now rfl left right tok

theorem logAnd_meets (inv : Inv tokens base state)
    (near : tokens.last - state.pos ≤ budget) (inside : InFunction state) :
    Meets tokens (logAnd again) state (ValueRead tokens base state) := by
  refine leftChain_meets sound ?_ (equality_meets allSound sound) inv near inside
  intro operator member
  obtain rfl := List.mem_singleton.mp member
  exact fun now left right tok => newTruth_meets now rfl left right tok

theorem logOr_meets (inv : Inv tokens base state)
    (near : tokens.last - state.pos ≤ budget) (inside : InFunction state) :
    Meets tokens (logOr again) state (ValueRead tokens base state) := by
  refine leftChain_meets sound ?_ (logAnd_meets allSound sound) inv near inside
  intro operator member
  obtain rfl := List.mem_singleton.mp member
  exact fun now left right tok => newTruth_meets now rfl left right tok

/-- Assignments group to the right. -/
theorem assign_meets (inv : Inv tokens base state)
    (near : tokens.last - state.pos ≤ budget) (inside : InFunction state) :
    Meets tokens (assign again) state (ValueRead tokens base state) := by
  refine .bind (logOr_meets allSound sound inv near inside) ?_
  intro lhs first read
  refine .position (.accept sound read.ran.inv.same ?_ ?_)
  · intro _ before
    have stepped := Ran.next read.ran.inv before
    have whole := read.ran.trans stepped.toMoved
    have ahead : state.pos < first.next.pos := Nat.lt_succ_of_lt read.forward
    refine .bind (allSound.assign stepped.inv (whole.closer near ahead)
      (whole.inFunction inside)) ?_
    intro rhs second rhsRead
    have right := rhsRead.behind stepped
    refine (newAssign_meets right.ran.inv (right.ran.operand read.operand) right.operand
      first.pos).weaken ?_
    intro id after built
    exact read.join right built
  · intro _
    exact .pure read

/-- Expressions behind commas. -/
theorem expr_meets (inv : Inv tokens base state)
    (near : tokens.last - state.pos ≤ budget) (inside : InFunction state) :
    Meets tokens (expr again) state (ValueRead tokens base state) := by
  refine .bind (assign_meets allSound sound inv near inside) ?_
  intro lhs first read
  refine .position (.accept sound read.ran.inv.same ?_ ?_)
  · intro _ before
    have stepped := Ran.next read.ran.inv before
    have whole := read.ran.trans stepped.toMoved
    have ahead : state.pos < first.next.pos := Nat.lt_succ_of_lt read.forward
    refine .bind (allSound.expr stepped.inv (whole.closer near ahead)
      (whole.inFunction inside)) ?_
    intro rhs second rhsRead
    have right := rhsRead.behind stepped
    refine (newComma_meets right.ran.inv (right.ran.operand read.operand) right.operand
      first.pos).weaken ?_
    intro id after built
    exact read.join right built
  · intro _
    exact .pure read

end Operators

end Grammar
end MiniC
