import MiniC.Proofs.Declarator.Syntax

/-!
# Parsers that read a given text

`Settles parser state stop accepts good` settles a run: if `accepts` holds, the parser
succeeds, the cursor stops at `stop`, and nothing has changed but that types were entered;
the result is `good`.  Otherwise the parser fails.  The rules put such parsers together,
so that the run of a production on the lexemes of a declarator is put together from the
runs on its parts.
-/

namespace MiniC
namespace Grammar

variable {α β σ : Type} {state : State} {accepts further : Prop} {middle stop : Nat}

/-- The state with the cursor elsewhere and another table of types. -/
def State.placed (state : State) (pos : Nat) (types : TypeTable) : State :=
  { state with pos := pos, program := { state.program with types := types } }

/-- A parser gives a result. -/
def Succeeds (parser : Parser α) (state : State) : Prop :=
  ∃ value after, parser state = .ok value after

instance (parser : Parser α) (state : State) : Decidable (Succeeds parser state) :=
  match run : parser state with
  | .ok value after => .isTrue ⟨value, after, run⟩
  | .error error after => .isFalse fun ⟨_, _, same⟩ => by
      cases run.symm.trans same

/-- A parser succeeds exactly if it accepts, at a known place and having entered types
only. -/
def Settles (parser : Parser α) (state : State) (stop : Nat) (accepts : Prop)
    (good : TypeTable -> α -> Prop) : Prop :=
  accepts ∧ (∃ value types, parser state = .ok value (state.placed stop types) ∧
    state.program.types.Extends types ∧ good types value) ∨
  ¬accepts ∧ ∃ error after, parser state = .error error after

namespace Settles

variable {parser : Parser α} {good : TypeTable -> α -> Prop}
    {better : TypeTable -> β -> Prop}

theorem pure {value : α} (fine : good state.program.types value) :
    Settles (pure value) state state.pos True good :=
  .inl ⟨trivial, value, state.program.types, rfl, .refl _, fine⟩

theorem fails {error : Error} {after : State}
    (failed : parser state = .error error after) :
    Settles parser state stop False good :=
  .inr ⟨not_false, error, after, failed⟩

/-- A parser that runs as another one does from a state further on. -/
theorem of_run
    {parser other : Parser α}
    {pos : Nat}
    {types : TypeTable}
    (run : parser state = other (state.placed pos types))
    (longer : state.program.types.Extends types)
    (settled : Settles other (state.placed pos types) stop accepts good) :
    Settles parser state stop accepts good := by
  rcases settled with ⟨holds, value, more, ends, extends_, fine⟩ | ⟨not, error,
    after, failed⟩
  · exact .inl ⟨holds, value, more, run.trans ends, longer.trans extends_, fine⟩
  · exact .inr ⟨not, error, after, run.trans failed⟩

/-- Results that are good may be good for more. -/
theorem weaken
    {fine : TypeTable -> α -> Prop}
    (settled : Settles parser state stop accepts good)
    (implies : ∀ types value, state.program.types.Extends types -> good types value ->
      fine types value) :
    Settles parser state stop accepts fine := by
  rcases settled with ⟨holds, value, types, run, longer, is⟩ | failed
  · exact .inl ⟨holds, value, types, run, longer, implies types value longer is⟩
  · exact .inr failed

theorem iff (settled : Settles parser state stop accepts good)
    (same : accepts ↔ further) :
    Settles parser state stop further good := by
  rwa [← propext same]

/-- Two parsers accept if both do. -/
theorem bind
    {next : α -> Parser β}
    (head : Settles parser state middle accepts good)
    (tail : ∀ value types, state.program.types.Extends types -> good types value ->
      Settles (next value) (state.placed middle types) stop further better) :
    Settles (parser >>= next) state stop (accepts ∧ further) better := by
  rcases head with ⟨holds, value, types, run, longer, fine⟩ | ⟨not, error, after, failed⟩
  · rcases tail value types longer fine with
      ⟨also, result, more, ends, extends_, is⟩ | ⟨not, error, after, failed⟩
    · refine .inl ⟨⟨holds, also⟩, result, more, ?_, longer.trans extends_, is⟩
      exact (bind_run run).trans ends
    · exact .inr ⟨fun both => not both.2, error, after, (bind_run run).trans failed⟩
  · exact .inr ⟨fun both => not both.1, error, after, bind_fail failed⟩

/-- A parser before one that always accepts. -/
theorem before
    {next : α -> Parser β}
    (head : Settles parser state middle accepts good)
    (tail : ∀ value types, state.program.types.Extends types -> good types value ->
      Settles (next value) (state.placed middle types) stop True better) :
    Settles (parser >>= next) state stop accepts better :=
  (head.bind tail).iff (and_iff_left trivial)

/-- A parser behind one that always accepts. -/
theorem behind
    {next : α -> Parser β}
    (head : Settles parser state middle True good)
    (tail : ∀ value types, state.program.types.Extends types -> good types value ->
      Settles (next value) (state.placed middle types) stop further better) :
    Settles (parser >>= next) state stop further better :=
  (head.bind tail).iff (and_iff_right trivial)

/-- What a run that succeeds has done. -/
theorem of_ok
    {value : α}
    {after : State}
    (settled : Settles parser state stop accepts good)
    (run : parser state = .ok value after) :
    accepts ∧ ∃ types, after = state.placed stop types ∧
    state.program.types.Extends types ∧
      good types value := by
  rcases settled with ⟨holds, result, types, ends, longer, fine⟩ | ⟨_,
    error, failed, ends⟩
  · rw [run] at ends
    cases ends
    exact ⟨holds, types, rfl, longer, fine⟩
  · rw [run] at ends
    cases ends

/-- A parser accepts exactly if it succeeds. -/
theorem succeeds_iff (settled : Settles parser state stop accepts good) :
    Succeeds parser state ↔ accepts := by
  constructor
  · rintro ⟨value, after, run⟩
    exact (settled.of_ok run).1
  · intro holds
    rcases settled with ⟨_, value, types, run, _⟩ | ⟨not, _⟩
    · exact ⟨value, _, run⟩
    · exact absurd holds not

end Settles

/-! ## Types -/

theorem enterTy_run (enter : TypeTable -> TyId × TypeTable) :
    enterTy enter state = .ok (enter state.program.types).1
      (state.placed state.pos (enter state.program.types).2) := rfl

theorem lookupTy_run {id : TyId} {ty : Ty}
    (found : state.program.types.get? id = some ty) :
    lookupTy id state = .ok ty state :=
  query_eq_ok (lookupTy_eq_ok found)

end Grammar
end MiniC
