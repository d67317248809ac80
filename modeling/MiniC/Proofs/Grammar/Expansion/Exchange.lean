import MiniC.Proofs.Grammar.Expansion.Sightless
import MiniC.Proofs.Grammar.Twins.Files
import MiniC.Proofs.Program.Exchange

/-!
# Reading two operands in the other order

Two operands that change nothing but the tables of types and nodes may be read in either
order.  What they enter is entered in another order then.
-/

namespace MiniC

/-! ## Programs -/

namespace Program.Renames

variable {names outer inner : Renaming} {program other grown early middle after : Program}

/-- The other program may grow. -/
theorem grow (renames : program.Renames names False other)
    (types : Heads other.types.entries grown.types.entries)
    (nodes : Heads other.nodes grown.nodes) (symbols : grown.symbols = other.symbols)
    (globals : grown.globals = other.globals) : program.Renames names False grown where
  types :=
    { found := fun id ty found => types _ _ (renames.types.found id ty found)
      missing := False.elim }
  found := fun id node found =>
    let ⟨also, there, stands⟩ := renames.found id node found
    ⟨also, nodes _ _ there, stands⟩
  missing := False.elim
  symbols := symbols.trans renames.symbols
  globals := globals.trans renames.globals

/-- References that a renaming does not move stay as they are, if other places for tokens
do not show its effect. -/
theorem steady {token : Nat -> Nat} (still : names.token = id)
    (placed : program.Renames (names.placing token) False other)
    (moved : program.Renames (.moving token) False other)
    (ty : ∀ id : TyId, id.index < program.types.entries.size -> names.ty id = id)
    (node : ∀ id : NodeId, id.index < program.nodes.size -> names.node id = id) :
    program.Renames names False program where
  types :=
    { found := fun id entry found => by
        have below := (Array.getElem?_eq_some_iff.mp found).1
        have one := placed.types.found id entry found
        have two := moved.types.found id entry found
        have same : names.ty id = id := ty id below
        rw [show carry (names.placing token) id = id from same] at one
        rw [show carry names id = id from same,
          Carried.Lawful.steady names token entry still
            (Option.some.inj (one.symm.trans two))]
        exact found
      missing := False.elim }
  found := fun id entry found => by
    have below := (Array.getElem?_eq_some_iff.mp found).1
    obtain ⟨one, there, stands⟩ := placed.found id entry found
    obtain ⟨two, alsoThere, alsoStands⟩ := moved.found id entry found
    have same : names.node id = id := node id below
    rw [show carry (names.placing token) id = id from same] at there
    obtain rfl := Option.some.inj (there.symm.trans alsoThere)
    refine ⟨entry, ?_, ?_, ?_, fun _ => rfl⟩
    · rw [show carry names id = id from same]
      exact found
    · exact (Carried.Lawful.steady names token _ still
        (stands.kind.symm.trans alsoStands.kind)).symm
    · exact (Carried.Lawful.steady names token _ still
        (stands.ty.symm.trans alsoStands.ty)).symm
  missing := False.elim
  symbols := Carried.Lawful.steady_map still (placed.symbols.symm.trans moved.symbols)
  globals := rfl

/-- What has been entered in one order is renamed where it has been entered in the other
order.  In the one order the first entries are followed by others; these have been renamed
if they are entered early. -/
theorem exchanged (first : middle.Renames outer False other)
    (second : early.Renames (outer.comp inner) False other)
    (shifted : early.Renames inner False after)
    (types : Heads middle.types.entries after.types.entries)
    (nodes : Heads middle.nodes after.nodes) (symbols : after.symbols = middle.symbols)
    (globals : after.globals = middle.globals)
    (tyCovers : ∀ id : TyId, middle.types.entries.size ≤ id.index ->
      id.index < after.types.entries.size ->
        ∃ sooner : TyId, sooner.index < early.types.entries.size ∧ inner.ty sooner = id)
    (nodeCovers : ∀ id : NodeId, middle.nodes.size ≤ id.index ->
      id.index < after.nodes.size ->
      ∃ sooner : NodeId, sooner.index < early.nodes.size ∧ inner.node sooner = id) :
    after.Renames outer False other where
  types :=
    { found := fun id ty found => by
        by_cases before : id.index < middle.types.entries.size
        · have entry := Array.getElem?_eq_getElem before
          have same : some ty = some _ := found.symm.trans (types _ _ entry)
          exact first.types.found id ty (entry.trans same.symm)
        · have below := (Array.getElem?_eq_some_iff.mp found).1
          obtain ⟨sooner, bound, rfl⟩ := tyCovers id (Nat.le_of_not_lt before) below
          have entry : early.types.get? sooner = some _ := Array.getElem?_eq_getElem bound
          have own :=
            Option.some.inj (found.symm.trans (shifted.types.found sooner _ entry))
          rw [own, ← comp]
          exact second.types.found sooner _ entry
      missing := False.elim }
  found := fun id node found => by
    by_cases before : id.index < middle.nodes.size
    · have entry := Array.getElem?_eq_getElem before
      have same : some node = some _ := found.symm.trans (nodes _ _ entry)
      exact first.found id node (entry.trans same.symm)
    · have below := (Array.getElem?_eq_some_iff.mp found).1
      obtain ⟨sooner, bound, rfl⟩ := nodeCovers id (Nat.le_of_not_lt before) below
      have entry : early.node? sooner = some _ := Array.getElem?_eq_getElem bound
      obtain ⟨own, there, stands⟩ := shifted.found sooner _ entry
      obtain ⟨also, alsoThere, alsoStands⟩ := second.found sooner _ entry
      obtain rfl := Option.some.inj (there.symm.trans found)
      refine ⟨also, alsoThere, ?_, ?_, fun statement => ?_⟩
      · rw [alsoStands.kind, stands.kind, comp]
      · rw [alsoStands.ty, stands.ty, comp]
      · have statement_ : early.nodes[sooner.index].kind.isExpression = false := by
          rw [stands.kind, NodeKind.carry_isExpression] at statement
          exact statement
        rw [alsoStands.line statement_, stands.line statement_]
  missing := False.elim
  symbols := symbols ▸ first.symbols
  globals := first.globals.trans globals.symm

end Program.Renames
namespace Grammar

variable {names : Renaming} {state there after reached : State} {w : Window}

/-! ## States -/

instance : Carried.Lawful FunctionContext where
  comp := fun outer inner ⟨_, _, _, _⟩ =>
    congrArg₂ (fun result gotos => FunctionContext.mk result _ _ gotos)
      (comp outer inner _) (comp outer inner _)
  steady := fun names token ⟨_, _, _, _⟩ still same =>
    congrArg₂ (fun result gotos => FunctionContext.mk result _ _ gotos)
      (steady names token _ still (congrArg FunctionContext.result same))
      (steady names token _ still (congrArg FunctionContext.gotos same))

namespace State

theorem Rests.refl (state : State) : state.Rests state := ⟨rfl, rfl, rfl, rfl, rfl⟩

theorem Rests.trans (first : state.Rests after) (second : after.Rests reached) :
    state.Rests reached where
  scopes := second.scopes.trans first.scopes
  symbols := second.symbols.trans first.symbols
  globals := second.globals.trans first.globals
  function := second.function.trans first.function
  literals := second.literals.trans first.literals

theorem Rests.moved (rests : state.Rests after) (own other : Nat) :
    (state.at_ own).Rests (after.at_ other) :=
  ⟨rests.scopes, rests.symbols, rests.globals, rests.function, rests.literals⟩

/-- What a state holds besides types and nodes, under other references. -/
structure Carries (names : Renaming) (state there : State) : Prop where
  scopes : there.scopes = carry names state.scopes
  symbols : there.program.symbols = state.program.symbols.map (carry names)
  globals : there.program.globals = state.program.globals
  function : there.function = carry names state.function
  literals : there.literals = state.literals

namespace Carries

/-- Nothing of it changes. -/
theorem rests (carries : state.Carries names there) (own : state.Rests after)
    (also : there.Rests reached) : after.Carries names reached where
  scopes := by rw [also.scopes, own.scopes, carries.scopes]
  symbols := by rw [also.symbols, own.symbols, carries.symbols]
  globals := by rw [also.globals, own.globals, carries.globals]
  function := by rw [also.function, own.function, carries.function]
  literals := by rw [also.literals, own.literals, carries.literals]

/-- The cursors do not count. -/
theorem moved (carries : state.Carries names there) (own other : Nat) :
    (state.at_ own).Carries names (there.at_ other) :=
  ⟨carries.scopes, carries.symbols, carries.globals, carries.function, carries.literals⟩

/-- Where nothing of it changes, nothing changes at the other place. -/
theorem also (carries : state.Carries names there) (own : state.Rests after)
    (then_ : after.Carries names reached) : there.Rests reached where
  scopes := by rw [then_.scopes, own.scopes, carries.scopes]
  symbols := by rw [then_.symbols, own.symbols, carries.symbols]
  globals := by rw [then_.globals, own.globals, carries.globals]
  function := by rw [then_.function, own.function, carries.function]
  literals := by rw [then_.literals, own.literals, carries.literals]

/-- A renaming that does not move what a state holds. -/
theorem steady {token : Nat -> Nat} (still : names.token = id)
    (placed : state.Carries (names.placing token) there)
    (moved : state.Carries (.moving token) there) : state.Carries names state where
  scopes := (Carried.Lawful.steady names token _ still
    (placed.scopes.symm.trans moved.scopes)).symm
  symbols := Carried.Lawful.steady_map still (placed.symbols.symm.trans moved.symbols)
  globals := rfl
  function := (Carried.Lawful.steady names token _ still
    (placed.function.symm.trans moved.function)).symm
  literals := rfl

end Carries
end State

namespace Window

theorem Linked.carries (linked : w.Linked state there) : state.Carries w.names there where
  scopes := linked.scopes
  symbols := linked.tables.renames.symbols
  globals := linked.tables.renames.globals
  function := linked.function
  literals := linked.literals

/-- States that go together, by what they hold. -/
theorem Linked.of_carries (carries : state.Carries w.names there)
    (within : state.Within w.tokens)
    (tokens : there.tokens = w.other) (cursor : there.pos ≤ w.other.last)
    (low : w.low ≤ state.pos) (pos : there.pos + w.low = state.pos + w.base)
    (tables : w.Tables state.program there.program)
    (rests : w.plain -> w.anchor.Rests state) :
    w.Linked state there where
  within := within
  tokens := tokens
  cursor := cursor
  reached := low
  pos := pos
  scopes := carries.scopes
  function := carries.function
  literals := carries.literals
  tables := tables
  rests := rests

end Window
end Grammar
end MiniC
