import MiniC.Proofs.Grammar.Twins

/-!
# Tables of twins

What parsers enter into the tables of types, nodes and symbols while they read a stretch
they enter, under other references, while they read it at another place.  A statement
takes its line from a token, so the places of that token have to be on the same line.
-/

namespace MiniC

section

variable {names : Renaming}

/-- The type `int` keeps its reference. -/
theorem Renaming.int (names : Renaming) : TyId.int = carry names TyId.int :=
  (names.ty_primitive _ (by decide)).symm

theorem Renaming.long (names : Renaming) : TyId.long = carry names TyId.long :=
  (names.ty_primitive _ (by decide)).symm

theorem Renaming.void (names : Renaming) : TyId.void = carry names TyId.void :=
  (names.ty_primitive _ (by decide)).symm

theorem Renaming.char (names : Renaming) : TyId.char = carry names TyId.char :=
  (names.ty_primitive _ (by decide)).symm

theorem Renaming.literalTy (names : Renaming) (value : Int) :
    Grammar.literalTy value = carry names (Grammar.literalTy value) := by
  unfold Grammar.literalTy
  split
  · exact names.int
  · exact names.long

/-- An array of a type that has another reference. -/
theorem TypeTable.Renames.arrayOf {exact : Prop} {types others : TypeTable}
    (renames : types.Renames names exact others) (element : TyId) (length : Int) :
    (∀ entered, types.arrayOf element length = .ok entered ->
      ∃ ty, entered = types.insert ty ∧ (∀ result params, ty.kind ≠ .func result params) ∧
        others.arrayOf (carry names element) length =
          .ok (others.insert (carry names ty))) ∧
    (exact -> ∀ reason, types.arrayOf element length = .error reason ->
      ∃ also, others.arrayOf (carry names element) length = .error also) := by
  unfold TypeTable.arrayOf
  have entry := renames.entry element
  cases known : types.entry element with
  | error reason =>
      refine ⟨fun _ never => (by cases never), fun holds _ _ => ?_⟩
      obtain ⟨also, failed⟩ := entry.error holds reason known
      exact ⟨also, by rw [failed]; rfl⟩
  | ok ty =>
      rw [entry.ok ty known]
      change (∀ entered, (Layout.sized (Extent.mul? ty.size length) >>= _) = _ ->
        ∃ _, _ ∧ _ ∧ (Layout.sized (Extent.mul? ty.size length) >>= _) = _) ∧ (_ -> ∀ _,
          (Layout.sized (Extent.mul? ty.size length) >>= _) = _ -> ∃ _,
            (Layout.sized (Extent.mul? ty.size length) >>= _) = _)
      cases Layout.sized (Extent.mul? ty.size length) with
      | error reason =>
          exact ⟨fun _ never => (by cases never), fun _ _ _ => ⟨reason, rfl⟩⟩
      | ok size =>
          refine ⟨?_, fun _ _ never => by cases never⟩
          rintro _ ⟨⟩
          exact ⟨_, rfl, nofun, rfl⟩

end

namespace Grammar

variable {w : Window} {calm : Prop} {state there : State} {low : Nat} {α β σ : Type}

theorem lookupNode_of_none {program : Program} {id : NodeId}
    (missing : program.node? id = none) :
    program.lookupNode id = .error (.fault (.missing .nodes id.index)) := by
  unfold Program.lookupNode
  rw [missing]

namespace Window

/-! ## Entering -/

namespace Tables

variable {program other : Program} (tables : w.Tables program other)

include tables

/-- The reference of the next type. -/
theorem tyNext (room : w.whole ∨ program.types.entries.size < w.tyHigh) :
    (⟨other.types.entries.size⟩ : TyId) = carry w.names ⟨program.types.entries.size⟩ := by
  have := tables.ty_le
  have := tables.tySize
  have fresh :=
    w.tyFresh (program.types.entries.size - w.tyLow) (room.imp_right (by omega))
  rw [show w.tyLow + (program.types.entries.size - w.tyLow) =
    program.types.entries.size by omega]
    at fresh
  rw [show carry w.names _ = _ from fresh]
  congr 1
  omega

/-- The reference of the next node. -/
theorem nodeNext (room : w.whole ∨ program.nodes.size < w.nodeHigh) :
    (⟨other.nodes.size⟩ : NodeId) = carry w.names ⟨program.nodes.size⟩ := by
  have := tables.node_le
  have := tables.nodeSize
  have fresh := w.nodeFresh (program.nodes.size - w.nodeLow) (room.imp_right (by omega))
  rw [show w.nodeLow + (program.nodes.size - w.nodeLow) =
    program.nodes.size by omega] at fresh
  rw [show carry w.names _ = _ from fresh]
  congr 1
  omega

/-- Both tables of types may be given a further entry. -/
theorem insert (room : w.whole ∨ program.types.entries.size < w.tyHigh) (ty : Ty) :
    w.Tables { program with types := (program.types.insert ty).2 }
      { other with types := (other.types.insert (carry w.names ty)).2 } where
  renames :=
    { tables.renames with
      types :=
        { found := by
            intro id found there
            change (program.types.entries.push ty)[id.index]? = some found at there
            rw [Array.getElem?_push] at there
            split at there
            · obtain rfl := Option.some.inj there
              have same : id = ⟨program.types.entries.size⟩ := congrArg TyId.mk ‹_›
              rw [same, ← tables.tyNext room]
              exact TypeTable.get?_insert_self _ _
            · exact TypeTable.get?_insert_of_some
                (tables.renames.types.found id found there) _
          missing := False.elim }
      missing := False.elim }
  primitive := by
    have := tables.primitive
    simp only [TypeTable.insert, Array.size_push]
    omega
  ty_le := by
    have := tables.ty_le
    simp only [TypeTable.insert, Array.size_push]
    omega
  tySize := by
    have := tables.tySize
    simp only [TypeTable.insert, Array.size_push]
    omega
  node_le := tables.node_le
  nodeSize := tables.nodeSize
  kept := fun plain =>
    ⟨(tables.kept plain).1.trans (Heads.push _ _), (tables.kept plain).2⟩

/-- Both tables of nodes may be given a further node. -/
theorem pushNode (room : w.whole ∨ program.nodes.size < w.nodeHigh) {node also : Node}
    (stands : node.Stands w.names also) :
    w.Tables { program with nodes := program.nodes.push node }
      { other with nodes := other.nodes.push also } where
  renames :=
    { tables.renames with
      found := by
        intro id found there
        change (program.nodes.push node)[id.index]? = some found at there
        change ∃ _, (other.nodes.push also)[(carry w.names id).index]? = _ ∧ _
        rw [Array.getElem?_push] at there
        split at there
        · obtain rfl := Option.some.inj there
          have same : id = ⟨program.nodes.size⟩ := congrArg NodeId.mk ‹_›
          rw [same, ← tables.nodeNext room]
          exact ⟨also, Array.getElem?_push_size, stands⟩
        · obtain ⟨now, known, stood⟩ := tables.renames.found id found there
          exact ⟨now, Heads.push other.nodes also _ _ known, stood⟩
      missing := False.elim }
  primitive := tables.primitive
  ty_le := tables.ty_le
  tySize := tables.tySize
  node_le := by
    have := tables.node_le
    simp only [Array.size_push]
    omega
  nodeSize := by
    have := tables.nodeSize
    simp only [Array.size_push]
    omega
  kept := fun plain =>
    ⟨(tables.kept plain).1, (tables.kept plain).2.trans (Heads.push _ _)⟩

/-- So may the tables of symbols. -/
theorem pushSymbol (symbol : Symbol) :
    w.Tables { program with symbols := program.symbols.push symbol }
      { other with symbols := other.symbols.push (carry w.names symbol) } :=
  { tables with
    renames :=
      { tables.renames with
        symbols := by
          change other.symbols.push _ = (program.symbols.push symbol).map _
          rw [Array.map_push, tables.renames.symbols] } }

/-- So may the lists of globals. -/
theorem pushGlobal (id : SymbolId) :
    w.Tables { program with globals := program.globals.push id }
      { other with globals := other.globals.push id } :=
  { tables with
    renames :=
      { tables.renames with
        globals := congrArg (·.push id) tables.renames.globals } }

/-- A type that is completed is completed under its other reference. -/
theorem complete (braced : ¬ w.plain) {id : TyId} {fields : List Field}
    {types : TypeTable} (known : program.types.complete id fields = .ok types) :
    ∃ others, other.types.complete (carry w.names id)
      (carry w.names fields) = .ok others ∧
      w.Tables { program with types := types } { other with types := others } := by
  obtain ⟨ty, entry, rest⟩ := MiniC.bind_eq_ok.mp known
  obtain ⟨layout, laid, same⟩ := MiniC.bind_eq_ok.mp rest
  obtain rfl := Except.ok.inj same
  have alsoEntry := (tables.renames.types.entry id).ok ty entry
  have alsoLaid :=
    (tables.renames.types.layout (TypeTable.formOf ty) fields).ok layout laid
  refine ⟨_, MiniC.bind_eq_ok.mpr
    ⟨_, alsoEntry, MiniC.bind_eq_ok.mpr ⟨carry w.names layout, ?_,
    rfl⟩⟩, { tables.renames with types := ⟨fun found ty there => ?_, False.elim⟩ }, ?_,
      ?_, ?_, tables.node_le, tables.nodeSize, fun plain => absurd plain braced⟩
  · rw [TypeTable.formOf_carry]
    exact alsoLaid
  · change (program.types.entries.setIfInBounds id.index _)[found.index]? =
      some ty at there
    change (other.types.entries.setIfInBounds (carry w.names id).index _)[
      (carry w.names found).index]? = _
    by_cases same : id = found
    · subst same
      rw [Array.getElem?_setIfInBounds_self] at there ⊢
      split at there
      · obtain rfl := Option.some.inj there
        have bound : (carry w.names id).index < other.types.entries.size :=
          (Array.getElem?_eq_some_iff.mp (TypeTable.get?_of_entry alsoEntry)).1
        rw [if_pos bound, TypeTable.formOf_carry]
        rfl
      · cases there
    · have apart : id.index ≠ found.index := fun index => same (congrArg TyId.mk index)
      have alsoApart : (carry w.names id).index ≠ (carry w.names found).index :=
        fun index => same (w.names.ty_injective (congrArg TyId.mk index))
      rw [Array.getElem?_setIfInBounds_ne apart] at there
      rw [Array.getElem?_setIfInBounds_ne alsoApart]
      exact tables.renames.types.found found ty there
  · simpa using tables.primitive
  · simpa using tables.ty_le
  · simpa using tables.tySize

/-- What cannot be completed cannot be completed under its other reference. -/
theorem complete_error (whole : w.whole) {id : TyId} {fields : List Field}
    {reason : LayoutError} (known : program.types.complete id fields = .error reason) :
    ∃ also, other.types.complete (carry w.names id) (carry w.names fields) =
      .error also := by
  unfold TypeTable.complete at known ⊢
  have entry := tables.exact.types.entry id
  cases found : program.types.entry id with
  | error error =>
      obtain ⟨also, failed⟩ := entry.error whole error found
      exact ⟨also, by rw [failed]; rfl⟩
  | ok ty =>
      rw [found] at known
      rw [entry.ok ty found]
      have laying := tables.exact.types.layout (TypeTable.formOf ty) fields
      cases laid : program.types.layout (TypeTable.formOf ty) fields with
      | error error =>
          obtain ⟨also, failed⟩ := laying.error whole error laid
          refine ⟨also, ?_⟩
          change (other.types.layout (TypeTable.formOf (carry w.names ty))
            (carry w.names fields) >>= _) = _
          rw [TypeTable.formOf_carry, failed]
          rfl
      | ok layout =>
          change (program.types.layout (TypeTable.formOf ty) fields >>= _) = _ at known
          rw [laid] at known
          cases known

/-- A block loses its statements. -/
theorem emptied (braced : ¬ w.plain) {id : NodeId} {node : Node}
    (known : program.node? id = some node) (statement : node.kind.isExpression = false) :
    w.Tables
      { program with
        nodes := program.nodes.modify id.index fun node =>
          { node with kind := .block [] } }
      { other with
        nodes := other.nodes.modify (carry w.names id).index fun node =>
          { node with kind := .block [] } } where
  renames :=
    { tables.renames with
      found := by
        intro found there here
        change (program.nodes.modify id.index _)[found.index]? = some there at here
        change ∃ also, (other.nodes.modify (carry w.names id).index _)[
          (carry w.names found).index]? = some also ∧ _
        by_cases same : id = found
        · subst same
          obtain ⟨also, known_, stands⟩ := tables.renames.found id node known
          rw [Array.getElem?_modify, if_pos rfl] at here ⊢
          rw [show program.nodes[id.index]? = some node from known] at here
          obtain rfl := Option.some.inj here
          rw [show other.nodes[(carry w.names id).index]? = some also from known_]
          exact ⟨_, rfl, rfl, stands.ty, fun _ => stands.line statement⟩
        · have apart : id.index ≠ found.index :=
            fun index => same (congrArg NodeId.mk index)
          have alsoApart : (carry w.names id).index ≠ (carry w.names found).index :=
            fun index => same (w.names.node_injective (congrArg NodeId.mk index))
          rw [Array.getElem?_modify, if_neg apart] at here
          rw [Array.getElem?_modify, if_neg alsoApart]
          exact tables.renames.found found there here
      missing := False.elim }
  primitive := tables.primitive
  ty_le := tables.ty_le
  tySize := tables.tySize
  node_le := by simpa using tables.node_le
  nodeSize := by simpa using tables.nodeSize
  kept := fun plain => absurd plain braced

/-- The next symbol has the same reference. -/
theorem symbolNext : other.symbols.size = program.symbols.size := by
  rw [tables.renames.symbols, Array.size_map]

end Tables

/-- Other tables of types and nodes. -/
theorem Linked.enter {types alsoTypes : TypeTable} {nodes alsoNodes : Array Node}
    (linked : w.Linked state there)
    (within : State.Within w.tokens
      { state with program := { state.program with types := types, nodes := nodes } })
    (tables : w.Tables { state.program with types := types, nodes := nodes }
      { there.program with types := alsoTypes, nodes := alsoNodes }) :
    w.Linked { state with
      program := { state.program with types := types, nodes := nodes } } { there with
        program := { there.program with types := alsoTypes, nodes := alsoNodes } } where
  within := within
  tokens := linked.tokens
  cursor := linked.cursor
  reached := linked.reached
  pos := linked.pos
  scopes := linked.scopes
  function := linked.function
  literals := linked.literals
  tables := tables
  rests := fun plain =>
    let rests := linked.rests plain
    ⟨rests.scopes, rests.symbols, rests.globals, rests.function, rests.literals⟩

end Window

namespace Twins

/-! ## Reading the tables -/

/-- Reading a type. -/
theorem lookupTy (id : TyId) :
    Twins w calm low .blind (Grammar.lookupTy id) (Grammar.lookupTy (carry w.names id)) :=
  .query fun _ _ tables => tables.exact.lookupTy id

theorem lookupSymbol (id : SymbolId) :
    Twins w calm low .blind (Grammar.query (·.lookupSymbol id))
      (Grammar.query (·.lookupSymbol id)) :=
  .query fun _ _ tables => tables.exact.lookupSymbol id

theorem lookupMember (aggregate : TyId) (index : Nat) :
    Twins w calm low .blind (Grammar.query (·.lookupMember aggregate index))
      (Grammar.query (·.lookupMember (carry w.names aggregate) index)) :=
  .query fun _ _ tables => tables.exact.lookupMember aggregate index

theorem typeOf (id : NodeId) :
    Twins w calm low .blind (Grammar.typeOf id) (Grammar.typeOf (carry w.names id)) :=
  .query fun _ _ tables => tables.exact.typeOf id

theorem nodeTy (id : NodeId) :
    Twins w calm low .blind (Grammar.nodeTy id) (Grammar.nodeTy (carry w.names id)) :=
  .query fun _ _ tables => tables.exact.nodeTy id

/-- A node is read whose place does not matter. -/
theorem lookupNode_bind [Carried α] {mode : Mode α}
    {rest behind : Node -> Parser α} (id : NodeId)
    (other : ∀ node also, node.Stands w.names also ->
      Twins w calm low mode (rest node) (behind also)) :
    Twins w calm low mode (Grammar.query (·.lookupNode id) >>= rest)
      (Grammar.query (·.lookupNode (carry w.names id)) >>= behind) := by
  intro inside state there within reached
  cases known : state.program.node? id with
  | none =>
      refine .of_error within (bind_fail (query_eq_error (lookupNode_of_none known)))
        fun linked whole _ => ?_
      have none := linked.tables.exact.missing whole id known
      exact ⟨_, _, bind_fail (query_eq_error (lookupNode_of_none none))⟩
  | some node =>
      have own := (other node
        ⟨carry w.names node.kind, carry w.names node.ty, node.loc, node.line⟩
        ⟨rfl, rfl, fun _ => rfl⟩ inside state there within reached).own
      refine .congr within (query_run (lookupNode_of_some known)) <| .of_linked own
        fun linked => ?_
      obtain ⟨also, there_, stands⟩ := linked.tables.renames.found id node known
      exact (other node also stands inside state there within reached).swap fun _ _ =>
        query_run (lookupNode_of_some there_)

/-! ## Entering types -/

/-- A type is entered whose parameters, if it has any, are named. -/
theorem enterTy {enter alsoEnter : TypeTable -> TyId × TypeTable} {ty : Ty}
    (inserts : ∀ types, enter types = types.insert ty)
    (alsoInserts : ∀ types, alsoEnter types = types.insert (carry w.names ty))
    (named : ∀ result params, ty.kind = .func result params -> Named w.tokens params) :
    Twins w calm low .blind (Grammar.enterTy enter) (Grammar.enterTy alsoEnter) := by
  obtain rfl : enter = fun types => types.insert ty := funext inserts
  obtain rfl : alsoEnter = fun types => types.insert (carry w.names ty) :=
    funext alsoInserts
  intro inside state there within reached
  have added : Added w.tokens state _ :=
    .enter within (within.types.insert named) (.push _ _) (.refl _)
  refine .of_ok within rfl added trivial (fun never => never.elim) fun linked near => ?_
  have room : w.whole ∨ state.program.types.entries.size < w.tyHigh :=
      near.imp_right fun ⟨_, few, _⟩ => by
    change (state.program.types.entries.push ty).size ≤ _ at few
    rw [Array.size_push] at few
    omega
  refine .inr ⟨_, ?_, linked.enter added.within (linked.tables.insert room ty)⟩
  change _ = EStateM.Result.ok
    (carry w.names (⟨state.program.types.entries.size⟩ : TyId)) _
  rw [← linked.tables.tyNext room]
  rfl

theorem pointerTo (base : TyId) :
    Twins w calm low .blind (Grammar.pointerTo base)
      (Grammar.pointerTo (carry w.names base)) :=
  .enterTy (fun _ => rfl) (fun _ => rfl) fun _ _ never => by cases never

theorem enterFunction (result : TyId) {params : List Param}
    (named : Named w.tokens params) :
    Twins w calm low .blind (Grammar.enterTy (·.function result params))
      (Grammar.enterTy (·.function (carry w.names result) (carry w.names params))) :=
  .enterTy (fun _ => rfl) (fun _ => rfl) fun _ _ same => by cases same; exact named

end Twins

/-- An array type that is too large is rejected. -/
theorem arrayOf_error {element : TyId} {length : Int} {tok : Nat} {cause : TypingError}
    {reason : LayoutError}
    (known : state.program.types.arrayOf element length = .error reason) :
    ∃ error after, arrayOf element length tok cause state = .error error after := by
  unfold arrayOf
  rw [get_run, known]
  cases reason <;> exact ⟨_, _, rfl⟩

namespace Twins

/-- Array types are entered in both tables, or rejected in both. -/
theorem arrayOf (element : TyId) (length : Int) (tok also : Nat)
    (cause why : TypingError) :
    Twins w calm low .blind (Grammar.arrayOf element length tok cause)
      (Grammar.arrayOf (carry w.names element) length also why) := by
  intro inside state there within reached
  cases known : state.program.types.arrayOf element length with
  | ok entered =>
      obtain ⟨size, align, rfl⟩ := TypeTable.insert_of_arrayOf known
      have added : Added w.tokens state _ :=
        .enter within (@Furnished.insert _ _ within.types
          ⟨.array element length, size, align, none⟩
          fun _ _ never => by cases never) (.push _ _) (.refl _)
      refine .of_ok within (arrayOf_run known) added trivial (fun never => never.elim)
        fun linked near => ?_
      have room : w.whole ∨ state.program.types.entries.size < w.tyHigh :=
        near.imp_right fun ⟨_, few, _⟩ => by
          change (state.program.types.entries.push _).size ≤ _ at few
          rw [Array.size_push] at few
          omega
      obtain ⟨ty, same, _, alsoKnown⟩ :=
        (linked.tables.renames.types.arrayOf element length).1 _ known
      have entry := congrArg (fun entered => entered.2.entries.back?) same
      simp only [TypeTable.insert, Array.back?_push, Option.some.injEq] at entry
      subst entry
      refine .inr ⟨_, (arrayOf_run alsoKnown).trans ?_,
        linked.enter added.within (linked.tables.insert room _)⟩
      rw [← linked.tables.tyNext room]
      rfl
  | error reason =>
      obtain ⟨error, after, failed⟩ :=
        @arrayOf_error state element length tok cause reason known
      refine .of_error within failed fun linked whole _ => ?_
      obtain ⟨_, alsoKnown⟩ :=
        (linked.tables.exact.types.arrayOf element length).2 whole reason known
      exact arrayOf_error alsoKnown

/-! ## Entering nodes -/

/-- A node is entered.  If it is a statement, its token has a place on the same line. -/
theorem newTyped {tok also : Nat} {kind : NodeKind} {ty : TyId}
    (suits : kind.isExpression = true ∨ w.Level low tok also) :
    Twins w calm low .blind (Grammar.newTyped kind ty tok)
      (Grammar.newTyped (carry w.names kind) (carry w.names ty) also) := by
  intro inside state there within reached
  have added : Added w.tokens state _ := .enter within within.types (.refl _)
    (.push _ ⟨kind, some ty, (state.token tok).loc, (state.token tok).line⟩)
  refine .of_ok within rfl added trivial (fun never => never.elim) fun linked near => ?_
  have room : w.whole ∨ state.program.nodes.size < w.nodeHigh :=
      near.imp_right fun ⟨_, _, few⟩ => by
    rw [Array.size_push] at few
    omega
  refine .inr ⟨_, ?_, linked.enter added.within
    (@Window.Tables.pushNode _ _ _ linked.tables room _
    ⟨_, some (carry w.names ty), (there.token also).loc, (there.token also).line⟩
    ⟨rfl, rfl, fun statement => ?_⟩)⟩
  · rw [← linked.tables.nodeNext room]
    rfl
  · rcases suits with expression | level
    · cases expression.symm.trans statement
    · change (there.tokens.get also).line = (state.tokens.get tok).line
      rw [linked.tokens, within.same]
      refine level (near.imp_right fun ⟨at_, _⟩ => ?_)
      have here : low ≤ state.pos := reached
      rcases at_ with further | ⟨same, -⟩
      · exact Nat.le_trans here (Nat.le_of_lt further)
      · exact Nat.le_trans here (Nat.le_of_eq same)

theorem newTyped_of_eq {tok also : Nat} {kind : NodeKind} {ty alsoTy : TyId}
    (suits : kind.isExpression = true ∨ w.Level low tok also)
    (same : alsoTy = carry w.names ty) :
    Twins w calm low .blind (Grammar.newTyped kind ty tok)
      (Grammar.newTyped (carry w.names kind) alsoTy also) :=
  same ▸ newTyped suits

/-- The common type of two operands. -/
theorem arithmeticTy (lhs rhs : TyId) :
    Twins w calm low .blind (Grammar.arithmeticTy lhs rhs)
      (Grammar.arithmeticTy (carry w.names lhs) (carry w.names rhs)) :=
  .bind (.lookupTy lhs) fun _ => .bind (.lookupTy rhs) fun _ =>
    .ite (by simp) (.pure id trivial) <|
      .ite (by simp) (.pure_of_eq id trivial w.names.long) <|
      .ite (by simp) (.pure_of_eq id trivial w.names.int) (.pure id trivial)

/-- A pointer in place of an array. -/
theorem decayed (id : TyId) :
    Twins w calm low .blind (Grammar.decayed id)
      (Grammar.decayed (carry w.names id)) := by
  refine .bind (.lookupTy id) fun ty => ?_
  obtain ⟨kind, _, _, _⟩ := ty
  cases kind with
  | array base length => exact .pointerTo base
  | _ => exact .pure False.elim trivial

theorem lastValueTy (body : List NodeId) (tok also : Nat) :
    Twins w calm low .blind (Grammar.lastValueTy body tok)
      (Grammar.lastValueTy (carry w.names body) also) := by
  unfold Grammar.lastValueTy
  rw [show (carry w.names body).getLast? = body.getLast?.map (carry w.names) from
    List.getLast?_map]
  cases body.getLast? with
  | none => exact .failAt _ _ _ _
  | some last =>
      refine .lookupNode_bind last fun node other stands => ?_
      rw [stands.kind]
      cases node.kind with
      | exprStmt expr => exact .typeOf expr
      | _ => exact .failAt _ _ _ _

/-- The type of a node is inferred alike. -/
theorem inferTy (kind : NodeKind) (tok also : Nat) :
    Twins w calm low .blind (Grammar.inferTy kind tok)
      (Grammar.inferTy (carry w.names kind) also) := by
  cases kind with
  | num value => exact .pure_of_eq id trivial (w.names.literalTy value)
  | var symbol => exact .bind (.lookupSymbol _) fun _ => .pure id trivial
  | unary op operand =>
      have integer : Twins w calm low .blind (Grammar.inferTy (.unary .neg operand) tok)
          (Grammar.inferTy (.unary .neg (carry w.names operand)) also) :=
        .bind (.typeOf _) fun _ => .bind (.lookupTy _) fun _ =>
          .first_unless (by simp) (.failAt _ _ _ _) fun _ => .arithmeticTy _ _
      cases op with
      | not =>
          exact .bind (.nodeTy _) fun _ => .first_if (by simp) (.failAt _ _ _ _) fun _ =>
            .pure_of_eq id trivial w.names.int
      | neg => exact integer
      | bitNot => exact integer
  | binary op lhs rhs =>
      exact .ite Iff.rfl (.pure_of_eq id trivial w.names.int) (.bind (.typeOf _) fun _ =>
        .bind (.typeOf _) fun _ => .arithmeticTy _ _)
  | assign lhs rhs =>
      exact .bind (.typeOf _) fun _ => .bind (.lookupTy _) fun _ =>
        .first_if (by simp) (.failAt _ _ _ _) fun _ => .pure id trivial
  | comma lhs rhs => exact .typeOf _
  | member base aggregate index =>
      exact .bind (.lookupMember _ _) fun _ => .pure id trivial
  | addr operand =>
      refine .bind (.typeOf _) fun _ => .bind (.lookupTy _) fun ty => ?_
      obtain ⟨kind, _, _, _⟩ := ty
      cases kind with
      | array base length => exact .pointerTo base
      | _ => exact .pointerTo _
  | deref operand =>
      refine .bind (.nodeTy _) fun ty => ?_
      rw [Ty.carry_base?]
      cases ty.base? with
      | none => exact .failAt _ _ _ _
      | some base =>
          exact .bind (.lookupTy base) fun _ =>
            .first_if (by simp) (.failAt _ _ _ _) fun _ => .pure id trivial
  | cast operand => exact .typeOf _
  | call function args =>
      refine .bind (.lookupSymbol _) fun _ => .bind (.lookupTy _) fun ty => ?_
      obtain ⟨kind, _, _, _⟩ := ty
      cases kind with
      | func result params => exact .pure id trivial
      | _ => exact .pure_of_eq id trivial w.names.int
  | stmtExpr body => exact .lastValueTy _ _ _
  | _ => exact .pure_of_eq id trivial w.names.void

/-- A node is entered with its type. -/
theorem newNode {tok also : Nat} {kind : NodeKind}
    (suits : kind.isExpression = true ∨ w.Level low tok also) :
    Twins w calm low .blind (Grammar.newNode kind tok)
      (Grammar.newNode (carry w.names kind) also) :=
  .bind (.inferTy kind tok also) fun _ => .newTyped suits

/-- An operand has to be a scalar in both places. -/
theorem checkScalar (node : NodeId) (tok also : Nat) :
    Twins w calm low .blind (Grammar.checkScalar node tok)
      (Grammar.checkScalar (carry w.names node) also) :=
  .bind (.nodeTy _) fun _ => .ite (by simp) (.failAt _ _ _ _) (.pure id trivial)

theorem checkInteger (node : NodeId) (tok also : Nat) :
    Twins w calm low .blind (Grammar.checkInteger node tok)
      (Grammar.checkInteger (carry w.names node) also) :=
  .bind (.nodeTy _) fun _ => .ite (by simp) (.pure id trivial) (.failAt _ _ _ _)

theorem checkArithmetic (ty : Ty) (tok also : Nat) :
    Twins w calm low .blind (Grammar.checkArithmetic ty tok)
      (Grammar.checkArithmetic (carry w.names ty) also) :=
  .ite (by simp) (.pure id trivial) (.failAt _ _ _ _)

theorem newBinary (op : BinaryOp) (lhs rhs : NodeId) (tok also : Nat) :
    Twins w calm low .blind (Grammar.newBinary op lhs rhs tok)
      (Grammar.newBinary op (carry w.names lhs) (carry w.names rhs) also) :=
  .bind (.checkScalar _ _ _) fun _ => .bind (.checkScalar _ _ _) fun _ =>
    .newNode (.inl rfl)

theorem newIntegerBinary (op : BinaryOp) (lhs rhs : NodeId) (tok also : Nat) :
    Twins w calm low .blind (Grammar.newIntegerBinary op lhs rhs tok)
      (Grammar.newIntegerBinary op (carry w.names lhs) (carry w.names rhs) also) :=
  .bind (.checkInteger _ _ _) fun _ => .bind (.checkInteger _ _ _) fun _ =>
    .newBinary _ _ _ _ _

/-- A cast is rejected in both places or in neither. -/
theorem newCast (operand : NodeId) (ty : TyId) (tok also : Nat) :
    Twins w calm low .blind (Grammar.newCast operand ty tok)
      (Grammar.newCast (carry w.names operand) (carry w.names ty) also) :=
  .bind (.lookupTy _) fun _ => .first_if (by simp) (.failAt _ _ _ _) fun _ =>
    .bind (.nodeTy _) fun _ => .first_if (by simp) (.failAt _ _ _ _) fun _ =>
      .newTyped (.inl rfl)

/-- So is an assignment. -/
theorem newAssign (lhs rhs : NodeId) (tok also : Nat) :
    Twins w calm low .blind (Grammar.newAssign lhs rhs tok)
      (Grammar.newAssign (carry w.names lhs) (carry w.names rhs) also) :=
  .bind (.typeOf _) fun lhsTy => .bind (.typeOf _) fun rhsTy =>
    .bind (.lookupTy _) fun _ => .first_if (by simp) (.failAt _ _ _ _) fun _ =>
      .ite (by simp) (.first_if (not_congr w.names.ty_injective.eq_iff) (.failAt _ _ _ _)
          fun _ => .newNode (.inl rfl)) <|
        .bind (.newCast _ _ _ _) fun _ => .newNode (.inl rfl)

/-- An index is scaled by the size of what is pointed to. -/
theorem scale (operand : NodeId) (element : TyId) (tok also : Nat) :
    Twins w calm low .blind (Grammar.scale operand element tok)
      (Grammar.scale (carry w.names operand) (carry w.names element) also) :=
  .bind (.lookupTy _) fun _ => .first_if (by simp) (.failAt _ _ _ _) fun _ =>
    .bind (.newTyped_of_eq (.inl rfl) w.names.int) fun _ => .newBinary _ _ _ _ _

theorem movePointer (op : BinaryOp) (pointer operand : NodeId) (element : TyId)
    (tok also : Nat) :
    Twins w calm low .blind (Grammar.movePointer op pointer operand element tok)
      (Grammar.movePointer op (carry w.names pointer) (carry w.names operand)
        (carry w.names element) also) :=
  .bind (.scale _ _ _ _) fun _ => .bind (.typeOf _) fun _ => .bind (.decayed _) fun _ =>
    .newTyped (.inl rfl)

theorem pointerDistance (lhs rhs : NodeId) (element : TyId) (tok also : Nat) :
    Twins w calm low .blind (Grammar.pointerDistance lhs rhs element tok)
      (Grammar.pointerDistance (carry w.names lhs) (carry w.names rhs)
        (carry w.names element) also) :=
  .bind (.lookupTy _) fun _ => .first_if (by simp) (.failAt _ _ _ _) fun _ =>
    .bind (.typeOf _) fun _ => .bind (.decayed _) fun _ =>
      .bind (.newTyped (.inl rfl)) fun _ =>
      .bind (.newTyped_of_eq (.inl rfl) w.names.int) fun _ =>
        .newTyped_of_eq (.inl rfl) w.names.int

/-- A sum depends on the types of its operands. -/
theorem newAdd (lhs rhs : NodeId) (tok also : Nat) :
    Twins w calm low .blind (Grammar.newAdd lhs rhs tok)
      (Grammar.newAdd (carry w.names lhs) (carry w.names rhs) also) := by
  refine .bind (.nodeTy lhs) fun left => .bind (.nodeTy rhs) fun right => ?_
  refine .bind (.checkArithmetic left _ _) fun _ =>
    .bind (.checkArithmetic right _ _) fun _ => ?_
  rw [Ty.carry_base?, Ty.carry_base?]
  cases left.base? <;> cases right.base?
  · exact .newBinary _ _ _ _ _
  · exact .movePointer _ _ _ _ _ _
  · exact .movePointer _ _ _ _ _ _
  · exact .failAt _ _ _ _

/-- So does a difference. -/
theorem newSub (lhs rhs : NodeId) (tok also : Nat) :
    Twins w calm low .blind (Grammar.newSub lhs rhs tok)
      (Grammar.newSub (carry w.names lhs) (carry w.names rhs) also) := by
  refine .bind (.nodeTy lhs) fun left => .bind (.nodeTy rhs) fun right => ?_
  refine .bind (.checkArithmetic left _ _) fun _ =>
    .bind (.checkArithmetic right _ _) fun _ => ?_
  rw [Ty.carry_base?, Ty.carry_base?]
  cases left.base? <;> cases right.base?
  · exact .newBinary _ _ _ _ _
  · exact .failAt _ _ _ _
  · exact .movePointer _ _ _ _ _ _
  · exact .pointerDistance _ _ _ _ _

/-! ## Declaring symbols -/

/-- A variable has to have a complete type. -/
theorem checkVariableTy (ty : TyId) (tok also : Nat) :
    Twins w calm low .blind (Grammar.checkVariableTy ty tok)
      (Grammar.checkVariableTy (carry w.names ty) also) :=
  .bind (.lookupTy _) fun _ => .first_if (by simp) (.failAt _ _ _ _) fun _ =>
    .ite (by simp) (.failAt _ _ _ _) (.pure id trivial)

section

variable (braced : ¬ w.plain)

include braced

/-- A local variable is entered and bound. -/
theorem newLocal (name : String) (ty : TyId) :
    Twins w calm low .blind (Grammar.newLocal name ty)
      (Grammar.newLocal name (carry w.names ty)) := by
  intro inside state there within reached
  have added := Added.pushLocal within name ty
    (state.scopes.declareVariable name (.object ⟨state.program.symbols.size⟩))
  refine .of_ok within rfl added trivial (fun never => never.elim) fun linked _ => ?_
  have next := linked.tables.symbolNext
  refine .inr ⟨{ there with
    program :=
      { there.program with
        symbols :=
          there.program.symbols.push ⟨name, carry w.names ty, false, .localVar none⟩ }
    function := there.function.map fun function =>
      { function with locals := function.locals ++ [⟨state.program.symbols.size⟩] }
    scopes :=
      there.scopes.declareVariable name (.object ⟨state.program.symbols.size⟩) }, ?_,
    added.within, linked.tokens, linked.cursor, linked.reached, linked.pos, ?_, ?_,
    linked.literals, linked.tables.pushSymbol _, fun plain => absurd plain braced⟩
  · rw [← next]
    rfl
  · rw [linked.scopes]
    exact (Scopes.carry_declareVariable w.names state.scopes name
      (.object ⟨state.program.symbols.size⟩)).symm
  · rw [linked.function]
    cases state.function <;> rfl

/-- A symbol of the file scope is entered and bound. -/
theorem newGlobalSymbol (symbol : Symbol) (undotted : Undotted symbol.name) :
    Twins w calm low .blind
      (do
        let id ← newSymbol symbol
        addGlobal id
        bindSymbol symbol.name id
        return id)
      (do
        let id ← newSymbol (carry w.names symbol)
        addGlobal id
        bindSymbol symbol.name id
        return id) := by
  intro inside state there within reached
  have added := @Added.pushGlobal _ _ within symbol undotted
    (state.scopes.declareVariable symbol.name (.object ⟨state.program.symbols.size⟩))
  refine .of_ok within rfl added trivial (fun never => never.elim) fun linked _ => ?_
  have next := linked.tables.symbolNext
  refine .inr ⟨{ there with
    program :=
      { there.program with
        symbols := there.program.symbols.push (carry w.names symbol)
        globals := there.program.globals.push ⟨state.program.symbols.size⟩ }
    scopes :=
      there.scopes.declareVariable symbol.name (.object ⟨state.program.symbols.size⟩) },
        ?_,
    added.within, linked.tokens, linked.cursor, linked.reached, linked.pos, ?_,
      linked.function,
    linked.literals, (linked.tables.pushSymbol _).pushGlobal _, fun plain =>
      absurd plain braced⟩
  · rw [← next]
    rfl
  · rw [linked.scopes]
    exact (Scopes.carry_declareVariable w.names state.scopes symbol.name
      (.object ⟨state.program.symbols.size⟩)).symm

theorem newGlobal {name : String} (undotted : Undotted name) (ty : TyId)
    (isStatic : Bool) :
    Twins w calm low .blind (Grammar.newGlobal name ty isStatic)
      (Grammar.newGlobal name (carry w.names ty) isStatic) :=
  .newGlobalSymbol braced ⟨name, ty, isStatic, .globalVar none⟩ undotted

theorem newFunction {name : String} (undotted : Undotted name) (ty : TyId)
    (isStatic : Bool) :
    Twins w calm low .blind (Grammar.newFunction name ty isStatic)
      (Grammar.newFunction name (carry w.names ty) isStatic) :=
  .newGlobalSymbol braced ⟨name, ty, isStatic, .function ⟨[], [], none, 0⟩⟩ undotted

end
end Twins

/-- A string literal is passed, and its array is entered. -/
theorem TwinsAt.stringLiteral {data : List UInt8} (tok also : Nat)
    (within : state.Within w.tokens) (here : state.current.kind = .str data) :
    TwinsAt w calm state there .closing (advance >>= fun _ => newStringLiteral data tok)
      (advance >>= fun _ => newStringLiteral data also) := by
  have more : state.current.kind ≠ .eof := by rw [here]; exact TokenKind.noConfusion
  have further := lt_last w.sound.ended within.same more
  have own : (w.tokens.get state.pos).kind = .str data := by
    rw [← within.same]
    exact here
  have passing : advance state = .ok () state.next := advance_run (within.same ▸ further)
  have alsoPassing (linked : w.Linked state there) (shown : w.Shown state.pos) :
      advance there = .ok () there.next :=
    advance_run (linked.tokens.symm ▸ shown.lt_last linked more)
  rcases TypeTable.arrayOf_cases within.types.char
    data.length with overflows | ⟨-, entered⟩
  · refine .of_error within ((bind_run passing).trans (newStringLiteral_fails overflows))
      fun linked whole _ => ?_
    obtain ⟨why, failed⟩ :=
      (linked.tables.exact.types.arrayOf .char data.length).2 whole _ overflows
    rw [← w.names.char] at failed
    obtain ⟨error, last, ends⟩ :=
      @arrayOf_error there.next _ _ also .stringTooLarge _ failed
    refine ⟨error, last, (bind_run (alsoPassing linked (.inl whole))).trans ?_⟩
    exact bind_fail ends
  · rw [Int.one_mul] at entered
    have added := Added.pushLiteral within further own
    refine .of_ok within ((bind_run passing).trans (newStringLiteral_run entered)) added
      trivial (fun _ => Nat.lt_succ_self _) fun linked near => ?_
    have shown : w.Shown state.pos := near.imp_right fun ⟨at_, _⟩ => by
      rcases at_ with further | ⟨same, -⟩
      · exact Nat.lt_of_succ_lt further
      · exact Nat.lt_of_succ_le (Nat.le_of_eq same)
    have braced : ¬ w.plain := fun plain => by
      have reached := linked.reached
      have strange := (w.quiet plain (state.pos - w.low) (by
        have := shown.resolve_left (w.loud plain)
        omega)).2
      rw [show w.low + (state.pos - w.low) = state.pos by omega, own] at strange
      cases strange
    have room : w.whole ∨ state.program.types.entries.size < w.tyHigh :=
      near.imp_right fun ⟨_, few, _⟩ => by
        change (state.program.types.entries.push _).size ≤ _ at few
        rw [Array.size_push] at few
        omega
    obtain ⟨ty, same, _, alsoEntered⟩ :=
      (linked.tables.renames.types.arrayOf .char data.length).1 _ entered
    have entry := congrArg (fun entered => entered.2.entries.back?) same
    simp only [TypeTable.insert, Array.back?_push, Option.some.injEq] at entry
    subst entry
    rw [← w.names.char] at alsoEntered
    have runs : (advance >>= fun _ => newStringLiteral data also) there =
        .ok ⟨there.program.symbols.size⟩
          { there.next with
            program :=
              { there.program with
                types := (there.program.types.insert (carry w.names
                  ⟨.array .char data.length, data.length, 1, none⟩)).2
                symbols := there.program.symbols.push
                  ⟨literalName there.literals, ⟨there.program.types.entries.size⟩, true,
                    .globalVar (some data)⟩
                globals := there.program.globals.push ⟨there.program.symbols.size⟩ }
            literals := there.literals + 1 } :=
      (bind_run (alsoPassing linked shown)).trans (newStringLiteral_run alsoEntered)
    rw [linked.tables.symbolNext, linked.literals, linked.tables.tyNext room] at runs
    have moved := linked.next shown more
    exact .inr ⟨_, runs, added.within, moved.tokens, moved.cursor,
      moved.reached, moved.pos, moved.scopes, moved.function, rfl,
      ((linked.tables.insert room _).pushSymbol _).pushGlobal _, fun plain =>
        absurd plain braced⟩

end Grammar
end MiniC
