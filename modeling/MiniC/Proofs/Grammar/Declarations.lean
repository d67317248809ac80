import MiniC.Grammar.Specifier
import MiniC.Proofs.Grammar.Nodes

/-!
# Specifiers and declarators keep the invariant

The productions are recursive through a record of the productions they may call again.
`Productions.Sound tokens budget again` says what the calls give as long as fewer tokens
than the budget are left.  A production that has consumed a token can use it with a
budget that is smaller by one, so that the depth of the recursion follows the tokens.
-/

namespace MiniC
namespace Grammar

/-! ## What productions give -/

/-- A type has been read. -/
structure TypeRead (tokens : TokenStream) (base : Nat) (state : State) (ty : TyId)
    (after : State) : Prop where
  ran : Ran tokens base state after
  has : after.program.types.Has ty

/-- A declarator has been read.  One that has a name has consumed it, and the name is an
identifier. -/
structure DeclaratorRead (tokens : TokenStream) (base : Nat) (state : State)
    (declared : Declarator) (after : State) : Prop where
  ran : Ran tokens base state after
  has : after.program.types.Has declared.ty
  named : declared.name.isSome = true -> state.pos < after.pos
  identifier : ∀ tok, declared.name = some tok -> (tokens.get tok).isIdentifier = true

/-- An expression has been read. -/
structure ValueRead (tokens : TokenStream) (base : Nat) (state : State) (id : NodeId)
    (after : State) : Prop where
  ran : Moved tokens base state after
  forward : state.pos < after.pos
  operand : Operand base after id
  accounts : Accounts tokens state after [id]

/-- A statement has been read. -/
structure StatementRead (tokens : TokenStream) (base : Nat) (state : State) (id : NodeId)
    (after : State) : Prop where
  ran : Moved tokens base state after
  forward : state.pos < after.pos
  part : Part base after id
  accounts : Accounts tokens state after [id]

/-- A block has been read.  Its node is new. -/
structure BlockRead (tokens : TokenStream) (base : Nat) (state : State) (id : NodeId)
    (after : State) : Prop extends StatementRead tokens base state id after where
  fresh : state.program.nodes.size ≤ id.index
  block : ∃ node body, after.program.node? id = some node ∧ node.kind = .block body

/-- What the productions give when fewer tokens than the budget are left. -/
structure Productions.Sound (tokens : TokenStream) (budget : Nat) (again : Productions) :
    Prop where
  specifiers : ∀ {base state}, Inv tokens base state ->
    tokens.last - state.pos < budget ->
    ∀ allowed, Meets tokens (again.specifiers allowed) state fun read after =>
      TypeRead tokens base state read.1 after
  declarator : ∀ {base state}, Inv tokens base state ->
    tokens.last - state.pos < budget -> ∀ {ty}, state.program.types.Has ty ->
      Meets tokens (again.declarator ty) state (DeclaratorRead tokens base state)
  suffix : ∀ {base state}, Inv tokens base state -> tokens.last - state.pos < budget ->
    ∀ {ty}, state.program.types.Has ty ->
      Meets tokens (again.suffix ty) state (TypeRead tokens base state)
  expr : ∀ {base state}, Inv tokens base state -> tokens.last - state.pos < budget ->
    InFunction state -> Meets tokens again.expr state (ValueRead tokens base state)
  assign : ∀ {base state}, Inv tokens base state -> tokens.last - state.pos < budget ->
    InFunction state -> Meets tokens again.assign state (ValueRead tokens base state)
  cast : ∀ {base state}, Inv tokens base state -> tokens.last - state.pos < budget ->
    InFunction state -> Meets tokens again.cast state (ValueRead tokens base state)
  unary : ∀ {base state}, Inv tokens base state -> tokens.last - state.pos < budget ->
    InFunction state -> Meets tokens again.unary state (ValueRead tokens base state)
  stmt : ∀ {base state}, Inv tokens base state -> tokens.last - state.pos < budget ->
    InFunction state -> Meets tokens again.stmt state (StatementRead tokens base state)
  block : ∀ {base state}, Inv tokens base state -> tokens.last - state.pos < budget ->
    InFunction state -> Meets tokens again.block state (BlockRead tokens base state)

section Behind

variable {tokens : TokenStream} {base : Nat} {before state after : State}

/-- A type that is read behind other tokens is read from in front of them. -/
theorem TypeRead.behind {ty : TyId} (read : TypeRead tokens base state ty after)
    (ran : Ran tokens base before state) : TypeRead tokens base before ty after :=
  ⟨ran.trans read.ran, read.has⟩

/-- A declarator that is read behind other tokens is read from in front of them. -/
theorem DeclaratorRead.behind {declared : Declarator}
    (read : DeclaratorRead tokens base state declared after)
    (ran : Ran tokens base before state) :
    DeclaratorRead tokens base before declared after where
  ran := ran.trans read.ran
  has := read.has
  named := fun name => Nat.lt_of_le_of_lt ran.forward (read.named name)
  identifier := read.identifier

/-- An expression that is read behind other tokens is read from in front of them. -/
theorem ValueRead.behind {id : NodeId} (read : ValueRead tokens base state id after)
    (ran : Ran tokens base before state) : ValueRead tokens base before id after where
  ran := ran.toMoved.trans read.ran
  forward := Nat.lt_of_le_of_lt ran.forward read.forward
  operand := read.operand
  accounts := read.accounts.behind ran

/-- An expression stays one while more is read. -/
theorem ValueRead.onward {id : NodeId} (read : ValueRead tokens base before id state)
    (ran : Ran tokens base state after) : ValueRead tokens base before id after where
  ran := read.ran.trans ran.toMoved
  forward := Nat.lt_of_lt_of_le read.forward ran.forward
  operand := ran.operand read.operand
  accounts := read.accounts.onward ran

/-- A node built behind an expression makes an expression. -/
theorem ValueRead.build {first id : NodeId}
    (read : ValueRead tokens base before first state)
    (built : Built tokens base [first] state id after) :
    ValueRead tokens base before id after where
  ran := read.ran.trans built.ran.toMoved
  forward := by rw [built.stays]; exact read.forward
  operand := built.operand
  accounts := read.accounts.build built.bears built.ran.signs

/-- A node built behind two expressions makes an expression. -/
theorem ValueRead.join {middle : State} {lhs rhs id : NodeId}
    (left : ValueRead tokens base before lhs middle)
    (right : ValueRead tokens base middle rhs state)
    (built : Built tokens base [lhs, rhs] state id after) :
    ValueRead tokens base before id after where
  ran := (left.ran.trans right.ran).trans built.ran.toMoved
  forward := by rw [built.stays]; exact Nat.lt_trans left.forward right.forward
  operand := built.operand
  accounts :=
    (left.accounts.append right.accounts right.ran.extended).build built.bears
      built.ran.signs

/-- A node built behind a run that has consumed a token makes an expression. -/
theorem Built.read {id : NodeId} (built : Built tokens base [] state id after)
    (ran : Ran tokens base before state) (forward : before.pos < state.pos) :
    ValueRead tokens base before id after where
  ran := ran.toMoved.trans built.ran.toMoved
  forward := by rw [built.stays]; exact forward
  operand := built.operand
  accounts := (Accounts.none ran.signs).build built.bears built.ran.signs

theorem StatementRead.behind {id : NodeId}
    (read : StatementRead tokens base state id after)
    (ran : Ran tokens base before state) : StatementRead tokens base before id after where
  ran := ran.toMoved.trans read.ran
  forward := Nat.lt_of_le_of_lt ran.forward read.forward
  part := read.part
  accounts := read.accounts.behind ran

/-- The cursor may be moved back, but not behind the start of a run. -/
theorem Ran.reposition (ran : Ran tokens base before after) {pos : Nat}
    (forward : before.pos ≤ pos) (bounded : pos ≤ tokens.last) :
    Ran tokens base before { after with pos := pos } :=
  ⟨⟨ran.inv.move bounded, ran.extended, ran.result, ran.locals, ran.outer, forward⟩,
    ran.signs⟩

end Behind

/-! ## Declarators -/

section Declarators

variable {tokens : TokenStream} {base budget : Nat} {state : State} {again : Productions}

/-- Entering a function type. -/
theorem enterFunction_meets (inv : Inv tokens base state) {result : TyId}
    (has : state.program.types.Has result) {params : List Param}
    (noArrays : ∀ param ∈ params, state.program.types.NoArray param.ty) :
    Meets tokens (enterTy (·.function result params)) state
      (TypeRead tokens base state) := by
  have rule : state.program.types.EntryRule ⟨.func result params, 1, 1, none⟩ :=
    { refs := by
        intro ref member
        rcases List.mem_cons.mp member with rfl | further
        · exact has
        · obtain ⟨param, inside, rfl⟩ := List.mem_map.mp further
          obtain ⟨_, found, _⟩ := noArrays param inside
          exact .of_get? found
      align := by simp
      align_le := by simp
      small := by simp [Extent.maxValue]
      members := .of_nil rfl
      sized := by simp
      width := by simp [Ty.isInteger]
      moved := fun _ _ => rfl
      params := by
        rintro _ _ ⟨⟩
        exact noArrays }
  refine (enterTy_meets inv ⟨.func result params, 1, 1, none⟩ (fun _ => rfl) rule).weaken
    ?_
  rintro id after ⟨ran, _, _, there⟩
  exact ⟨ran, .of_get? there⟩

/-- The type of a parameter is no array. -/
theorem parameterTy_meets (inv : Inv tokens base state) {ty : TyId}
    (has : state.program.types.Has ty) :
    Meets tokens (parameterTy ty) state fun id after =>
      Ran tokens base state after ∧ after.program.types.NoArray id := by
  obtain ⟨entry, found⟩ := TypeTable.has_iff.mp has
  refine lookupTy_meets found ?_
  split
  · rename_i element length kind
    have elementHas : state.program.types.Has element :=
      inv.types.refs ty entry found element (by simp [kind, TyKind.refs])
    refine (pointerTo_meets inv elementHas).weaken ?_
    rintro pointer after ⟨ran, _, there⟩
    exact ⟨ran, _, there, rfl⟩
  · rename_i other
    refine .pure ⟨.refl inv, entry, found, ?_⟩
    unfold Ty.isArray
    split
    · exact absurd ‹_› (other _ _)
    · rfl

/-- The name of a declarator is an identifier and has been consumed. -/
theorem requireName_meets {β : Type} {rest : Nat -> Parser β} {post : β -> State -> Prop}
    {before : State} {declared : Declarator}
    (read : DeclaratorRead tokens base before declared state)
    (named : ∀ tok, (tokens.get tok).isIdentifier = true -> before.pos < state.pos ->
      Meets tokens (rest tok) state post) :
    Meets tokens (declared.requireName >>= rest) state post := by
  have required : Meets tokens declared.requireName state fun tok after =>
      after = state ∧ (tokens.get tok).isIdentifier = true ∧ before.pos < state.pos := by
    unfold Declarator.requireName
    split
    · rename_i tok name
      exact .pure ⟨rfl, read.identifier tok name, read.named (by simp [name])⟩
    · exact .failAt read.ran.inv.same
  refine .bind required ?_
  rintro tok _ ⟨rfl, identifier, forward⟩
  exact named tok identifier forward

variable (sound : tokens.Sound)

include sound

/-- Each star makes a pointer type. -/
theorem pointers_meets (inv : Inv tokens base state) {ty : TyId}
    (has : state.program.types.Has ty) :
    Meets tokens (pointers ty) state (TypeRead tokens base state) := by
  refine .iterate (TypeRead tokens base state)
    (fun _ current => tokens.last - current.pos) inv.same ⟨.refl inv, has⟩ (by omega) ?_
  intro ty current read
  refine .accept sound read.ran.inv.same ?_ ?_
  · intro _ before
    have stepped := Ran.next read.ran.inv before
    refine .bind (pointerTo_meets stepped.inv (stepped.has read.has)) ?_
    rintro pointer after ⟨ran, stays, found⟩
    refine .pure ⟨⟨(read.ran.trans stepped).trans ran, .of_get? found⟩, ?_⟩
    rw [stays, State.next_pos]
    omega
  · intro _
    exact .pure read

end Declarators

section Recursive

variable {tokens : TokenStream} {base budget : Nat} {state : State} {again : Productions}
variable (allSound : again.Sound tokens budget)

include allSound

/-- A parameter may be empty, so it may consume nothing. -/
theorem parameter_meets (inv : Inv tokens base state)
    (close : tokens.last - state.pos < budget) :
    Meets tokens (parameter again) state fun param after =>
      Ran tokens base state after ∧ after.program.types.NoArray param.ty := by
  refine .bind (allSound.specifiers inv close false) ?_
  rintro ⟨ty, storage⟩ first read
  have closer : tokens.last - first.pos < budget := by
    have forward := read.ran.forward
    omega
  refine .bind (allSound.declarator read.ran.inv closer read.has) ?_
  intro declared second declaredRead
  refine .bind (parameterTy_meets declaredRead.ran.inv declaredRead.has) ?_
  rintro paramTy third ⟨ran, noArray⟩
  exact .pure ⟨(read.ran.trans declaredRead.ran).trans ran, noArray⟩

variable (sound : tokens.Sound)

include sound

/-- A list of parameters makes a function type. -/
theorem parameters_meets (inv : Inv tokens base state)
    (close : tokens.last - state.pos < budget) {result : TyId}
    (has : state.program.types.Has result) :
    Meets tokens (parameters again result) state (TypeRead tokens base state) := by
  refine .get ?_
  split
  · rename_i empty
    simp only [Bool.and_eq_true] at empty
    have before := Meets.lt_last_of_sees sound inv.same empty.1
    have first := Ran.next inv before
    have further := Meets.lt_last_of_sees sound first.inv.same empty.2
    have second := first.trans (Ran.next first.inv further)
    refine .advance inv.same before (.advance first.inv.same further ?_)
    exact (enterFunction_meets second.inv (second.has has) (by simp)).weaken
      fun _ _ read => read.behind second
  · refine .bind (.commaList sound (fun (params : List Param) after =>
      Ran tokens base state after ∧ ∀ param ∈ params,
        after.program.types.NoArray param.ty)
      ?_ ?_ ?_ ⟨.refl inv, by simp⟩) ?_
    · rintro params current ⟨ran, _⟩
      exact ⟨ran.inv.same, ran.inv.cursor⟩
    · rintro params current ⟨ran, present⟩ before
      exact ⟨ran.trans (.next ran.inv before), present⟩
    · rintro params current ⟨ran, present⟩ ahead
      refine (parameter_meets allSound ran.inv (by omega)).weaken ?_
      rintro param after ⟨further, noArray⟩
      refine ⟨⟨ran.trans further, ?_⟩, further.forward⟩
      intro other member
      rcases List.mem_append.mp member with earlier | single
      · exact further.extended.noArray (present other earlier)
      · obtain rfl := List.mem_singleton.mp single
        exact noArray
    · rintro params after ⟨ran, present⟩
      exact (enterFunction_meets ran.inv (ran.has has) present).weaken
        fun _ _ read => read.behind ran

/-- A length in brackets makes an array type. -/
theorem arraySuffix_meets (inv : Inv tokens base state)
    (close : tokens.last - state.pos < budget) {ty : TyId}
    (has : state.program.types.Has ty) :
    Meets tokens (arraySuffix again ty) state (TypeRead tokens base state) := by
  refine .position ?_
  refine .number sound inv.same ?_
  intro length pos _ forward bounded
  have counted := Ran.move inv (Nat.le_of_lt forward) bounded
  refine .rejectIf (.failAt counted.inv.same) fun nonneg => ?_
  refine .expect sound counted.inv.same fun _ before => ?_
  have closed := counted.trans (Ran.next counted.inv before)
  have closer : tokens.last - (pos + 1) < budget := by omega
  refine .bind (allSound.suffix closed.inv closer (closed.has has)) ?_
  intro element after read
  obtain ⟨entry, found⟩ := TypeTable.has_iff.mp read.has
  refine lookupTy_meets found ?_
  refine .rejectIf (.failAt read.ran.inv.same) fun sized => ?_
  refine (arrayOf_meets read.ran.inv found (by omega) (by omega) state.pos _).weaken ?_
  rintro array last ⟨ran, _, arrayHas⟩
  exact ⟨(closed.trans read.ran).trans ran, arrayHas⟩

/-- The suffixes behind a token may recur. -/
theorem suffix_meets (inv : Inv tokens base state)
    (near : tokens.last - state.pos ≤ budget) {ty : TyId}
    (has : state.program.types.Has ty) :
    Meets tokens (suffix again ty) state (TypeRead tokens base state) := by
  refine .accept sound inv.same ?_ ?_
  · intro _ before
    have stepped := Ran.next inv before
    refine (parameters_meets allSound sound stepped.inv
      (stepped.closer near (Nat.lt_succ_self _)) (stepped.has has)).weaken ?_
    exact fun _ _ read => read.behind stepped
  intro _
  refine .accept sound inv.same ?_ ?_
  · intro _ before
    have stepped := Ran.next inv before
    refine (arraySuffix_meets allSound sound stepped.inv
      (stepped.closer near (Nat.lt_succ_self _)) (stepped.has has)).weaken ?_
    exact fun _ _ read => read.behind stepped
  · intro _
    exact .pure ⟨.refl inv, has⟩

/-- A declarator in parentheses is read twice. -/
theorem nestedDeclarator_meets (inv : Inv tokens base state)
    (near : tokens.last - state.pos ≤ budget) {ty : TyId}
    (has : state.program.types.Has ty)
    (seen : state.sees "(" = true) :
    Meets tokens (nestedDeclarator again ty) state fun declared after =>
      DeclaratorRead tokens base state declared after ∧ state.pos < after.pos := by
  have before := Meets.lt_last_of_sees sound inv.same seen
  have opened := Ran.next inv before
  have close := opened.closer near (Nat.lt_succ_self _)
  refine .advance inv.same before (.position ?_)
  refine .bind (allSound.declarator opened.inv close opened.inv.has_int) ?_
  intro _ first probe
  refine .expect sound probe.ran.inv.same fun _ further => ?_
  have closed := (opened.trans probe.ran).trans (Ran.next probe.ran.inv further)
  have ahead : state.pos < first.next.pos := by
    have forward := probe.ran.forward
    rw [State.next_pos] at forward ⊢
    omega
  refine .bind (suffix_meets allSound sound closed.inv ?_ (closed.has has)) ?_
  · exact Nat.le_of_lt (closed.closer near ahead)
  intro outer second read
  have ran := closed.trans read.ran
  refine .position (.seek ran.inv.same before ?_)
  have back := ran.reposition (Nat.le_succ state.pos) before
  refine .bind (allSound.declarator back.inv close read.has) ?_
  intro declared third declaredRead
  have last := back.trans declaredRead.ran
  have bounded := ran.inv.cursor
  refine .seek last.inv.same bounded (.pure ?_)
  have forward : state.pos < second.pos := Nat.lt_of_lt_of_le ahead read.ran.forward
  exact ⟨⟨last.reposition ran.forward bounded, declaredRead.has, fun _ => forward,
    declaredRead.identifier⟩, forward⟩

/-- A declarator gives a type and perhaps the token of a name. -/
theorem declarator_meets (inv : Inv tokens base state)
    (near : tokens.last - state.pos ≤ budget) {ty : TyId}
    (has : state.program.types.Has ty) :
    Meets tokens (declarator again ty) state (DeclaratorRead tokens base state) := by
  refine .position (.bind (pointers_meets sound inv has) ?_)
  intro pointer first read
  have closeEnough : tokens.last - first.pos ≤ budget := by
    have forward := read.ran.forward
    omega
  refine .get ?_
  split
  · rename_i nested
    simp only [Bool.and_eq_true] at nested
    refine .bind (nestedDeclarator_meets allSound sound read.ran.inv closeEnough read.has
      nested.1) ?_
    rintro declared after ⟨declaredRead, forward⟩
    have whole := declaredRead.behind read.ran
    exact .pure ⟨whole.ran, whole.has, whole.named, whole.identifier⟩
  · refine .identifier? sound read.ran.inv.same ?_ ?_
    · intro identifier before
      have named := read.ran.trans (Ran.next read.ran.inv before)
      have forward : state.pos < first.next.pos := Nat.lt_succ_of_le read.ran.forward
      refine .bind (suffix_meets allSound sound named.inv
        (Nat.le_of_lt (named.closer near forward)) read.has) ?_
      intro suffixed after suffixRead
      refine .pure ⟨named.trans suffixRead.ran, suffixRead.has, fun _ => ?_, ?_⟩
      · exact Nat.lt_of_lt_of_le forward suffixRead.ran.forward
      · rintro tok equal
        obtain rfl : first.pos = tok := by simpa using equal
        rw [← read.ran.inv.same]
        exact identifier
    · intro _
      refine .bind (suffix_meets allSound sound read.ran.inv closeEnough read.has) ?_
      intro suffixed after suffixRead
      exact .pure ⟨read.ran.trans suffixRead.ran, suffixRead.has, by simp, by simp⟩

/-- Declarators up to a semicolon that extend a result with a stable property. -/
theorem declaratorList_meets {σ : Type} {start : σ}
    {extend : σ -> Declarator -> Nat -> Parser σ}
    (property : σ -> State -> Prop)
    (stable : ∀ result before after, property result before ->
      Ran tokens base before after -> property result after)
    (inv : Inv tokens base state)
    (near : tokens.last - state.pos ≤ budget)
    {ty : TyId}
    (has : state.program.types.Has ty)
    (holds : property start state)
    (keeps : ∀ result declared tok current, Moved tokens base state current ->
      property result current -> current.program.types.Has declared.ty ->
      tokens.last - current.pos ≤ budget ->
      Meets tokens (extend result declared tok) current fun next after =>
        Moved tokens base current after ∧ property next after) :
    Meets tokens (declaratorList again ty start extend) state fun result after =>
      Moved tokens base state after ∧ state.pos < after.pos ∧ property result after := by
  refine .iterate (fun (current : Bool × σ) after =>
      Moved tokens base state after ∧ property current.2 after)
    (fun _ current => tokens.last - current.pos) inv.same ⟨.refl inv, holds⟩ (by omega) ?_
  rintro ⟨first, result⟩ current ⟨ran, now⟩
  refine .accept sound ran.inv.same ?_ ?_
  · intro _ before
    have stepped := Ran.next ran.inv before
    exact .pure ⟨ran.trans stepped.toMoved, Nat.lt_succ_of_le ran.forward,
      stable result current _ now stepped⟩
  intro _
  -- One more declarator, from behind the comma if it is not the first.
  have more {behind : State} (stepped : Ran tokens base current behind) :
      Meets tokens (do
        let declared ← declarator again ty
        let tok ← declared.requireName
        return Round.again (false, ← extend result declared tok)) behind
      fun (round : Round (Bool × σ) σ) after => ∃ next, round = .again next ∧
        (Moved tokens base state after ∧ property next.2 after) ∧
          tokens.last - after.pos < tokens.last - current.pos := by
    have whole := ran.trans stepped.toMoved
    have closeEnough : tokens.last - behind.pos ≤ budget := by
      have forward := whole.forward
      omega
    refine .bind (declarator_meets allSound sound whole.inv closeEnough (whole.has has))
      ?_
    intro declared second read
    refine requireName_meets read ?_
    intro tok _ forward
    have last := whole.trans read.ran.toMoved
    have nearer : tokens.last - second.pos ≤ budget := by omega
    refine .bind (keeps result declared tok second last
      (stable result behind _ (stable result current _ now stepped) read.ran) read.has
      nearer) ?_
    rintro next third ⟨extended, kept⟩
    refine .pure ⟨_, rfl, ⟨last.trans extended, kept⟩, ?_⟩
    have moved := stepped.forward
    have further := extended.forward
    have bounded := extended.inv.cursor
    omega
  rw [if_neg (by simp)]
  cases first with
  | true =>
      refine (more (.refl ran.inv)).weaken ?_
      rintro _ after ⟨next, rfl, kept⟩
      exact kept
  | false =>
      refine .expect sound ran.inv.same fun _ before => ?_
      refine (more (Ran.next ran.inv before)).weaken ?_
      rintro _ after ⟨next, rfl, kept⟩
      exact kept

/-- Declarators without initialisers note no label and no jump. -/
theorem plainDeclaratorList_meets {σ : Type} {start : σ}
    {extend : σ -> Declarator -> Nat -> Parser σ}
    (property : σ -> State -> Prop)
    (stable : ∀ result before after, property result before ->
      Ran tokens base before after -> property result after)
    (inv : Inv tokens base state)
    (near : tokens.last - state.pos ≤ budget)
    {ty : TyId}
    (has : state.program.types.Has ty)
    (holds : property start state)
    (keeps : ∀ result declared tok current, Ran tokens base state current ->
      property result current -> current.program.types.Has declared.ty ->
      Meets tokens (extend result declared tok) current fun next after =>
        Ran tokens base current after ∧ property next after) :
    Meets tokens (declaratorList again ty start extend) state fun result after =>
      Ran tokens base state after ∧ state.pos < after.pos ∧ property result after := by
  refine (declaratorList_meets allSound sound
    (fun result after => property result after ∧ after.signs = state.signs)
    ?_ inv near has ⟨holds, rfl⟩ ?_).weaken ?_
  · rintro result before after ⟨own, same⟩ ran
    exact ⟨stable result before after own ran, ran.signs.trans same⟩
  · rintro result declared tok current moved ⟨own, same⟩ declaredHas _
    refine (keeps result declared tok current ⟨moved, same⟩ own declaredHas).weaken ?_
    rintro next after ⟨ran, kept⟩
    exact ⟨ran.toMoved, kept, ran.signs.trans same⟩
  · rintro result after ⟨moved, forward, kept, same⟩
    exact ⟨⟨moved, same⟩, forward, kept⟩

end Recursive

/-! ## Specifiers -/

section Specifiers

variable {tokens : TokenStream} {base budget : Nat} {state : State} {again : Productions}

/-- The primitive types are in every table. -/
theorem Inv.has_primitive (inv : Inv tokens base state) {ty : TyId}
    (primitive : ty.index < 6) : state.program.types.Has ty := by
  obtain ⟨entry, found⟩ := TypeTable.has_iff.mp
    (show TypeTable.initial.Has ty from primitive)
  exact .of_get? (inv.types.primitives ty entry found)

/-- Words of basic types spell one of the first six types. -/
theorem spelled?_primitive {words : List TypeWord} {ty : TyId}
    (spelled : TypeWord.spelled? words = some ty) : ty.index < 6 := by
  obtain ⟨spelling, found, rfl⟩ := Option.map_eq_some_iff.mp spelled
  have all : ∀ entry ∈ TypeWord.spellings, entry.2.index < 6 := by decide
  exact all spelling (List.mem_of_find?_eq_some found)

theorem addWord?_primitive {seen extended : Specifiers} {word : TypeWord}
    (added : seen.addWord? word = some extended) : extended.ty.index < 6 := by
  unfold Specifiers.addWord? at added
  split at added
  · cases added
  · obtain ⟨ty, spelled, rfl⟩ := Option.map_eq_some_iff.mp added
    exact spelled?_primitive spelled

/-- A word of a basic type is one token. -/
theorem typeWord_meets (inv : Inv tokens base state) (before : state.pos < tokens.last)
    (seen : Specifiers) :
    Meets tokens (typeWord seen) state fun extended after =>
      after = state.next ∧ state.program.types.Has extended.ty := by
  refine .get ?_
  split
  · exact .failHere inv.same
  · rename_i extended added
    obtain ⟨word, _, spells⟩ := Option.bind_eq_some_iff.mp added
    refine .advance inv.same before (.pure ⟨rfl, ?_⟩)
    exact inv.has_primitive (addWord?_primitive spells)

theorem storageClass_meets (inv : Inv tokens base state)
    (before : state.pos < tokens.last) (allowed : Bool) (storage : Storage) :
    Meets tokens (storageClass allowed storage) state fun _ after => after =
      state.next := by
  refine .rejectUnless (.failHere inv.same) fun _ => ?_
  refine .get (.rejectIf (.failHere inv.same) fun _ => ?_)
  exact .advance inv.same before (.pure rfl)

/-- A tag stands for the struct or union that it is bound to. -/
theorem taggedAggregate_meets (inv : Inv tokens base state) (form : Form) (tag : String)
    (tok : Nat) :
    Meets tokens (taggedAggregate form tag tok) state (TypeRead tokens base state) := by
  refine .get ?_
  split
  · exact .failAt inv.same
  · rename_i ty found
    have has := inv.scopes.lookupTag? found
    obtain ⟨entry, there⟩ := TypeTable.has_iff.mp has
    refine lookupTy_meets there ?_
    split
    · exact .pure ⟨.refl inv, has⟩
    · exact .failAt inv.same

/-- A tag stands for the enumeration that it is bound to. -/
theorem taggedEnum_meets (inv : Inv tokens base state) (tag : String) (tok : Nat) :
    Meets tokens (taggedEnum tag tok) state (TypeRead tokens base state) := by
  refine .get ?_
  split
  · exact .failAt inv.same
  · rename_i ty found
    have has := inv.scopes.lookupTag? found
    obtain ⟨entry, there⟩ := TypeTable.has_iff.mp has
    refine lookupTy_meets there ?_
    split
    · exact .pure ⟨.refl inv, has⟩
    · exact .failAt inv.same

theorem bindTag_meets (inv : Inv tokens base state)
    (tag : Option (String × Nat)) {ty : TyId} (has : state.program.types.Has ty) :
    Meets tokens (bindTag tag ty) state fun _ after =>
      Ran tokens base state after ∧ after.pos = state.pos := by
  unfold bindTag
  split
  · exact declareTag_meets inv _ has
  · exact .pure ⟨.refl inv, rfl⟩

/-- A member that is added has a size. -/
theorem addField_meets (inv : Inv tokens base state) {fields : List Field}
    (ruled : ∀ field ∈ fields, state.program.types.FieldRule field)
    {declared : Declarator} (has : state.program.types.Has declared.ty) (tok : Nat) :
    Meets tokens (addField fields declared tok) state fun more after =>
      Ran tokens base state after ∧
        ∀ field ∈ more, after.program.types.FieldRule field := by
  obtain ⟨entry, found⟩ := TypeTable.has_iff.mp has
  refine lookupTy_meets found ?_
  refine .rejectIf (.failAt inv.same) fun sized => ?_
  refine .get (.pure ⟨.refl inv, ?_⟩)
  intro field member
  rcases List.mem_append.mp member with earlier | single
  · exact ruled field earlier
  · obtain rfl := List.mem_singleton.mp single
    exact ⟨entry, found, by omega⟩

/-- Completing a type that has been entered since the start of a run. -/
theorem completeTy_meets {before : State} (ran : Ran tokens base before state) {id : TyId}
    (fresh : before.program.types.entries.size ≤ id.index) {form : Form} {brace : Nat}
    (found : state.program.types.get? id = some ⟨.aggregate form [], -1, 1, some brace⟩)
    {fields : List Field}
    (ruled : ∀ field ∈ fields, state.program.types.FieldRule field) (tok : Nat) :
    Meets tokens (completeTy id fields tok) state fun _ after =>
      Ran tokens base before after ∧ after.program.types.Has id := by
  refine .get ?_
  rcases TypeTable.complete_cases ran.inv.types found rfl ruled with
    failed | ⟨layout, rule, completed⟩
  · rw [failed]
    exact .failAt ran.inv.same
  · rw [completed]
    have bound : id.index < state.program.types.entries.size :=
      TypeTable.Has.of_get? found
    refine ⟨⟨⟨ran.inv.complete found rfl (by simp) ruled rule, ⟨?_, ran.extended.nodes,
      ran.extended.symbols⟩, ran.result, ran.locals, ran.outer, ran.forward⟩, ran.signs⟩,
        ?_⟩
    · intro other ty there
      have kept := ran.extended.types other ty there
      have below : other.index < before.program.types.entries.size :=
        TypeTable.Has.of_get? there
      rw [TypeTable.get?, Array.getElem?_setIfInBounds_ne (by omega)]
      exact kept
    · simpa [TypeTable.Has] using bound

variable (sound : tokens.Sound)

include sound

/-- A type name begins before the end. -/
theorem lt_last_of_startsType (inv : Inv tokens base state)
    (starts : state.startsType state.pos = true) : state.pos < tokens.last := by
  unfold State.startsType at starts
  simp only [Bool.or_eq_true, List.any_eq_true] at starts
  rcases starts with ⟨keyword, _, seen⟩ | named
  · exact Meets.lt_last_of_sees sound inv.same seen
  · apply Meets.lt_last_of_isIdentifier sound inv.same
    unfold State.typedefAt? at named
    dsimp only at named
    split at named
    · assumption
    · cases named

/-- A constant is bound to a value of its enumeration. -/
theorem enumConstant_meets (inv : Inv tokens base state) {ty : TyId} {entry : Ty}
    (found : state.program.types.get? ty = some entry) (integer : entry.isInteger = true)
    (next : Option Int) :
    Meets tokens (enumConstant ty next) state fun _ after =>
      Ran tokens base state after ∧ state.pos < after.pos := by
  refine .identifier sound inv.same fun _ before => ?_
  have named := Ran.next inv before
  have declare {value : Int} {after : State} (ran : Ran tokens base state after)
      (forward : state.pos < after.pos) :
      Meets tokens (do
        modifyScopes (·.declareVariable state.current.text (.enumConstant ty value))
        return Extent.add? value 1) after
      fun _ last => Ran tokens base state last ∧ state.pos < last.pos := by
    have fine :
        BindingRule after.program [] state.current.text (.enumConstant ty value) :=
      ⟨entry, ran.extended.types ty entry found, integer⟩
    refine .bind (declareVariable_meets ran.inv _ fine) ?_
    rintro _ last ⟨declared, stays⟩
    exact .pure ⟨ran.trans declared, by rw [stays]; exact forward⟩
  refine .accept sound named.inv.same ?_ ?_
  · intro _ further
    have equals := named.trans (Ran.next named.inv further)
    refine .number sound equals.inv.same ?_
    intro value pos _ forward bounded
    simp only [State.next_pos] at forward
    refine declare (equals.reposition (by omega) bounded) ?_
    change state.pos < pos
    omega
  · intro _
    cases next with
    | some value => exact declare named (Nat.lt_succ_self _)
    | none => exact .failAt_bind named.inv.same

theorem enumConstants_meets (inv : Inv tokens base state) {ty : TyId} {entry : Ty}
    (found : state.program.types.get? ty = some entry)
    (integer : entry.isInteger = true) :
    Meets tokens (enumConstants ty) state fun _ after =>
      Ran tokens base state after ∧ state.pos < after.pos := by
  refine .iterate (fun _ after => Ran tokens base state after)
    (fun _ current => tokens.last - current.pos) inv.same (.refl inv) (by omega) ?_
  rintro ⟨first, next⟩ current ran
  -- One more constant, from the cursor or from behind a comma.
  have more {behind : State} (stepped : Ran tokens base current behind) :
      Meets tokens (do return Round.again (false, ← enumConstant ty next)) behind
      fun (round : Round (Bool × Option Int) Unit) after => ∃ next, round = .again next ∧
        Ran tokens base state after ∧
        tokens.last - after.pos < tokens.last - current.pos := by
    have whole := ran.trans stepped
    refine .bind (enumConstant_meets sound whole.inv (whole.extended.types ty entry found)
      integer next) ?_
    rintro value after ⟨counted, forward⟩
    refine .pure ⟨_, rfl, whole.trans counted, ?_⟩
    have moved := stepped.forward
    have bounded := counted.inv.cursor
    omega
  refine .accept sound ran.inv.same ?_ ?_
  · intro _ before
    exact .pure ⟨ran.trans (.next ran.inv before), Nat.lt_succ_of_le ran.forward⟩
  intro _
  rw [if_neg (by simp)]
  cases first with
  | true =>
      rw [if_pos rfl]
      refine (more (.refl ran.inv)).weaken ?_
      rintro _ after ⟨next, rfl, kept⟩
      exact kept
  | false =>
      rw [if_neg (by simp)]
      refine .expect sound ran.inv.same fun _ before => ?_
      have stepped := Ran.next ran.inv before
      refine .accept sound stepped.inv.same ?_ ?_
      · intro _ further
        have closed := (ran.trans stepped).trans (.next stepped.inv further)
        refine .pure ⟨closed, ?_⟩
        have forward := ran.forward
        change state.pos < current.pos + 1 + 1
        omega
      · intro _
        refine (more stepped).weaken ?_
        rintro _ after ⟨next, rfl, kept⟩
        exact kept

/-- The constants of an enumeration are of an integer type. -/
theorem enumBody_meets (inv : Inv tokens base state) (tag : Option (String × Nat)) :
    Meets tokens (enumBody tag) state (TypeRead tokens base state) := by
  refine .expect sound inv.same fun _ before => ?_
  have opened := Ran.next inv before
  have rule : state.program.types.EntryRule ⟨.enum, 4, 4, none⟩ :=
    { refs := by simp [TyKind.refs]
      align := by simp
      align_le := by simp
      small := by simp [Extent.maxValue]
      members := .of_nil rfl
      sized := by simp
      width := fun _ => rfl
      moved := fun _ _ => rfl
      params := by simp }
  refine .bind (enterTy_meets opened.inv ⟨.enum, 4, 4, none⟩ (fun _ => rfl) rule) ?_
  rintro ty first ⟨entered, _, _, found⟩
  refine .bind (enumConstants_meets sound entered.inv found rfl) ?_
  rintro _ second ⟨listed, _⟩
  have has := listed.has (.of_get? found)
  refine .bind (bindTag_meets listed.inv tag has) ?_
  rintro _ third ⟨bound, _⟩
  exact .pure ⟨((opened.trans entered).trans listed).trans bound, bound.has has⟩

theorem enumeration_meets (inv : Inv tokens base state) :
    Meets tokens enumeration state (TypeRead tokens base state) := by
  refine .identifier? sound inv.same ?_ ?_
  · intro _ before
    have named := Ran.next inv before
    refine .get ?_
    split
    · exact (taggedEnum_meets named.inv _ _).weaken fun _ _ read => read.behind named
    · exact (enumBody_meets sound named.inv _).weaken fun _ _ read => read.behind named
  · intro _
    exact .get (enumBody_meets sound inv none)

variable (allSound : again.Sound tokens budget)

include allSound

/-- The members of a struct or union have a size each. -/
theorem fieldList_meets (inv : Inv tokens base state)
    (close : tokens.last - state.pos < budget) :
    Meets tokens (fieldList again) state fun fields after =>
      Ran tokens base state after ∧
        ∀ field ∈ fields, after.program.types.FieldRule field := by
  have stable (fields : List Field) (before after : State)
      (ruled : ∀ field ∈ fields, before.program.types.FieldRule field)
      (ran : Ran tokens base before after) :
      ∀ field ∈ fields, after.program.types.FieldRule field := by
    intro field member
    obtain ⟨entry, found, sized⟩ := ruled field member
    exact ⟨entry, ran.extended.types field.ty entry found, sized⟩
  refine .iterate (fun fields after => Ran tokens base state after ∧
      ∀ field ∈ fields, after.program.types.FieldRule field)
    (fun _ current => tokens.last - current.pos) inv.same
      ⟨.refl inv, by simp⟩ (by omega) ?_
  rintro fields current ⟨ran, ruled⟩
  refine .accept sound ran.inv.same ?_ ?_
  · intro _ before
    exact .pure ⟨ran.trans (.next ran.inv before), ruled⟩
  intro _
  have closer : tokens.last - current.pos < budget := by
    have forward := ran.forward
    omega
  refine .bind (allSound.specifiers ran.inv closer false) ?_
  rintro ⟨ty, storage⟩ second read
  have closeEnough : tokens.last - second.pos ≤ budget := by
    have forward := read.ran.forward
    omega
  refine .bind (plainDeclaratorList_meets allSound sound
    (fun fields after => ∀ field ∈ fields, after.program.types.FieldRule field) stable
    read.ran.inv closeEnough read.has (stable fields current _ ruled read.ran) ?_) ?_
  · intro fields declared tok now listed ruled has
    exact addField_meets listed.inv ruled has tok
  · rintro more third ⟨listed, forward, ruledThen⟩
    refine .pure ⟨⟨(ran.trans read.ran).trans listed, ruledThen⟩, ?_⟩
    have moved := read.ran.forward
    have bounded := listed.inv.cursor
    omega

/-- A struct or union is entered open and completed by its members. -/
theorem aggregateBody_meets (inv : Inv tokens base state)
    (close : tokens.last - state.pos ≤ budget) (form : Form)
    (tag : Option (String × Nat)) :
    Meets tokens (aggregateBody again form tag) state (TypeRead tokens base state) := by
  refine .position (.expect sound inv.same fun _ before => ?_)
  have opened := Ran.next inv before
  have rule : state.program.types.EntryRule ⟨.aggregate form [], -1, 1, some state.pos⟩ :=
    { refs := by simp [TyKind.refs]
      align := by simp
      align_le := by simp
      small := by simp [Extent.maxValue]
      members := .of_nil rfl
      sized := fun _ => ⟨form, rfl⟩
      width := by simp [Ty.isInteger]
      moved := by simp [Ty.isAggregate]
      params := by simp }
  refine .bind (enterTy_meets opened.inv ⟨.aggregate form [], -1, 1, some state.pos⟩
    (fun _ => rfl) rule) ?_
  rintro id first ⟨entered, index, stays, found⟩
  refine .bind (bindTag_meets entered.inv tag (.of_get? found)) ?_
  rintro _ second ⟨bound, staysToo⟩
  have closer : tokens.last - second.pos < budget := by
    rw [staysToo, stays, State.next_pos]
    omega
  refine .bind (fieldList_meets sound allSound bound.inv closer) ?_
  rintro fields third ⟨listed, ruled⟩
  have foundThen := listed.extended.types id _ (bound.extended.types id _ found)
  have ran := ((opened.trans entered).trans bound).trans listed
  refine .bind (completeTy_meets ran (Nat.le_of_eq index.symm) foundThen ruled state.pos)
    ?_
  rintro _ fourth ⟨whole, has⟩
  exact .pure ⟨whole, has⟩

/-- A struct or union by its tag or its members. -/
theorem aggregate_meets (inv : Inv tokens base state)
    (near : tokens.last - state.pos ≤ budget) (form : Form) :
    Meets tokens (aggregate again form) state (TypeRead tokens base state) := by
  refine .identifier? sound inv.same ?_ ?_
  · intro _ before
    have named := Ran.next inv before
    have closer : tokens.last - state.next.pos ≤ budget :=
      Nat.le_of_lt (named.closer near (Nat.lt_succ_self _))
    refine .get ?_
    split
    · exact (taggedAggregate_meets named.inv _ _ _).weaken
        fun _ _ read => read.behind named
    · exact (aggregateBody_meets sound allSound named.inv closer form _).weaken
        fun _ _ read => read.behind named
  · intro _
    exact .get (aggregateBody_meets sound allSound inv near form none)

/-- A named type consumes its first token. -/
theorem namedTy_meets (inv : Inv tokens base state)
    (near : tokens.last - state.pos ≤ budget) (before : state.pos < tokens.last)
    {typedef : Option TyId}
    (has : ∀ ty, typedef = some ty -> state.program.types.Has ty) :
    Meets tokens (namedTy again typedef) state fun ty after =>
      TypeRead tokens base state ty after ∧ state.pos < after.pos := by
  have stepped := Ran.next inv before
  have closer : tokens.last - state.next.pos ≤ budget :=
    Nat.le_of_lt (stepped.closer near (Nat.lt_succ_self _))
  have onward {ty : TyId} {after : State}
      (read : TypeRead tokens base state.next ty after) :
      TypeRead tokens base state ty after ∧ state.pos < after.pos :=
    ⟨read.behind stepped, read.ran.forward⟩
  refine .accept sound inv.same ?_ ?_
  · intro _ _
    exact (aggregate_meets sound allSound stepped.inv closer .struct).weaken
      fun _ _ read => onward read
  intro _
  refine .accept sound inv.same ?_ ?_
  · intro _ _
    exact (aggregate_meets sound allSound stepped.inv closer .union).weaken
      fun _ _ read => onward read
  intro _
  refine .accept sound inv.same ?_ ?_
  · intro _ _
    exact (enumeration_meets sound stepped.inv).weaken fun _ _ read => onward read
  intro _
  refine .advance inv.same before (.pure (onward ⟨.refl stepped.inv, ?_⟩))
  cases typedef with
  | none => exact inv.has_int
  | some ty => exact has ty rfl

/-- Specifiers give a type and a storage class. -/
theorem specifiers_meets (inv : Inv tokens base state)
    (near : tokens.last - state.pos ≤ budget) (allowed : Bool) :
    Meets tokens (specifiers again allowed) state fun read after =>
      TypeRead tokens base state read.1 after := by
  refine .iterate (fun seen after => TypeRead tokens base state seen.ty after)
    (fun _ current => tokens.last - current.pos) inv.same ⟨.refl inv, inv.has_int⟩
    (by omega) ?_
  intro seen current read
  have now := read.ran.inv
  refine .get ?_
  split
  · exact .pure read
  rename_i starts
  have before := lt_last_of_startsType sound now (by simpa using starts)
  have stepped := Ran.next now before
  split
  · refine .bind (storageClass_meets now before allowed seen.storage) ?_
    rintro storage _ rfl
    refine .pure ⟨⟨read.ran.trans stepped, read.has⟩, ?_⟩
    rw [State.next_pos]
    omega
  dsimp only
  split
  · split
    · exact .pure read
    · have closeEnough : tokens.last - current.pos ≤ budget := by
        have forward := read.ran.forward
        omega
      refine .bind (namedTy_meets sound allSound now closeEnough before ?_) ?_
      · intro ty equal
        unfold State.typedefAt? at equal
        dsimp only at equal
        split at equal
        · exact now.scopes.typedef? equal
        · cases equal
      · rintro ty after ⟨named, forward⟩
        refine .pure ⟨named.behind read.ran, ?_⟩
        have bounded := named.ran.inv.cursor
        omega
  · refine .bind (typeWord_meets now before seen) ?_
    rintro extended _ ⟨rfl, has⟩
    refine .pure ⟨⟨read.ran.trans stepped, has⟩, ?_⟩
    rw [State.next_pos]
    omega

/-- The name of a type gives that type. -/
theorem typeName_meets (inv : Inv tokens base state)
    (near : tokens.last - state.pos ≤ budget) :
    Meets tokens (typeName again) state (TypeRead tokens base state) := by
  refine .bind (specifiers_meets sound allSound inv near false) ?_
  rintro ⟨ty, storage⟩ first read
  have closeEnough : tokens.last - first.pos ≤ budget := by
    have forward := read.ran.forward
    omega
  refine .bind (declarator_meets allSound sound read.ran.inv closeEnough read.has) ?_
  intro declared second declaredRead
  exact .pure ⟨read.ran.trans declaredRead.ran, declaredRead.has⟩

end Specifiers

end Grammar
end MiniC
